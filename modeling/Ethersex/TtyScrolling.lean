import Ethersex.TtyWindows
import Mathlib.Tactic.Common

/-!
# Printing and scrolling

A window shows a picture, and every function of `core/tty/tty.c` repaints it.  Inside of the window
printing does not scroll, so that scrolling ends; printing below the last row scrolls once, and
printing needs no more depth than that.
-/

namespace Ethersex.Tty

open ByteMemory GuardedRuns

/-- The window lies inside of the screen, with coordinates that do not wrap. -/
structure Inside (config : Config) (win : Window) : Prop where
  maxx : win.maxx.toNat < 255
  maxy : win.maxy.toNat < 255
  right : win.begx.toNat + win.maxx.toNat < config.cols
  bottom : win.begy.toNat + win.maxy.toNat < config.lines

/-- The places that a window may change: its own cells, or the whole image. -/
def Owns (config : Config) (win : Window) (index : Nat) : Prop :=
  if win.subwin then
    ∃ y x, y ≤ win.maxy.toNat ∧ x ≤ win.maxx.toNat ∧ index = cell config win y x
  else index < config.lines * config.cols

/-- The character is printed, it does not move the cursor only. -/
def Plain (ch : UInt8) : Prop := ch ≠ newline ∧ ch ≠ carriageReturn

/-- What a window shows. -/
def picture (config : Config) (screen : Screen) (y x : Nat) : UInt8 :=
  screen.image (cell config screen.win y x)

/-- The window shows a new picture, its cursor has moved, and nothing else has changed. -/
structure Repaints (config : Config) (screen : Screen) (cursor : UInt8 × UInt8)
    (painting : Nat → Nat → UInt8) (next : Screen) : Prop where
  win : next.win = screen.win.at cursor
  painted : ∀ y x, y ≤ screen.win.maxy.toNat → x ≤ screen.win.maxx.toNat →
    next.image (cell config screen.win y x) = painting y x
  framed : ∀ index, ¬Owns config screen.win index → next.image index = screen.image index
  plain : (∀ index, Plain (screen.image index)) → ∀ index, Plain (next.image index)

section Pictures

variable {config : Config} {screen middle next : Screen} {win : Window}
  {cursor cursor' : UInt8 × UInt8} {painting painting' : Nat → Nat → UInt8} {y x : UInt8}

theorem plain_blank : Plain blank := ⟨by decide, by decide⟩

@[simp]
theorem win_follow (screen : Screen) (y x : UInt8) : (screen.follow y x).win = screen.win := by
  rw [Screen.follow]
  split_ifs <;> rfl

@[simp]
theorem image_follow (screen : Screen) (y x : UInt8) :
    (screen.follow y x).image = screen.image := by
  rw [Screen.follow]
  split_ifs <;> rfl

/-- Moving the cursor does not move the window. -/
theorem Inside.moved (inside : Inside config screen.win) (moves : next.win = screen.win.at cursor) :
    Inside config next.win := by
  rw [moves]
  exact ⟨inside.maxx, inside.maxy, inside.right, inside.bottom⟩

theorem cell_inj (inside : Inside config win) {y y' x x' : Nat} (bound : x ≤ win.maxx.toNat)
    (bound' : x' ≤ win.maxx.toNat) :
    cell config win y x = cell config win y' x' ↔ y = y' ∧ x = x' := by
  have right := inside.right
  constructor
  · intro same
    rw [cell, cell] at same
    have row (a b : Nat) (below : b < config.cols) : (a * config.cols + b) / config.cols = a := by
      rw [Nat.add_comm, Nat.add_mul_div_right _ _ (by omega), Nat.div_eq_of_lt below, Nat.zero_add]
    have rows := congrArg (· / config.cols) same
    rw [row _ _ (by omega), row _ _ (by omega)] at rows
    rw [rows] at same
    omega
  · rintro ⟨rfl, rfl⟩
    rfl

theorem owns_cell (inside : Inside config win) {y x : Nat} (below : y ≤ win.maxy.toNat)
    (left : x ≤ win.maxx.toNat) : Owns config win (cell config win y x) := by
  rw [Owns]
  split_ifs
  · exact ⟨y, x, below, left, rfl⟩
  · have right := inside.right
    have bottom := inside.bottom
    have rows : (y + win.begy.toNat + 1) * config.cols ≤ config.lines * config.cols :=
      Nat.mul_le_mul_right _ (by omega)
    rw [Nat.succ_mul] at rows
    rw [cell]
    omega

theorem Repaints.refl (config : Config) (screen : Screen) :
    Repaints config screen (screen.win.y, screen.win.x) (picture config screen) screen :=
  ⟨rfl, fun _ _ _ _ => rfl, fun _ _ => rfl, id⟩

theorem Repaints.trans (first : Repaints config screen cursor painting middle)
    (second : Repaints config middle cursor' painting' next) :
    Repaints config screen cursor' painting' next := by
  obtain ⟨win, painted, framed, plain⟩ := second
  rw [first.win] at win painted framed
  exact ⟨win, painted, fun index outside => (framed index outside).trans
    (first.framed index outside),
    plain ∘ first.plain⟩

theorem Repaints.congr (repaints : Repaints config screen cursor painting next)
    (same : ∀ y x, y ≤ screen.win.maxy.toNat → x ≤ screen.win.maxx.toNat →
      painting y x = painting' y x) : Repaints config screen cursor painting' next :=
  ⟨repaints.win, fun y x below left => (repaints.painted y x below left).trans
    (same y x below left),
    repaints.framed, repaints.plain⟩

/-- What the window shows behind the step. -/
theorem Repaints.picture_eq (repaints : Repaints config screen cursor painting next) {y x : Nat}
    (below : y ≤ screen.win.maxy.toNat) (left : x ≤ screen.win.maxx.toNat) :
    picture config next y x = painting y x := by
  rw [picture, repaints.win]
  exact repaints.painted y x below left

theorem wmove_eq (below : y ≤ screen.win.maxy) (left : x ≤ screen.win.maxx) :
    (wmove screen y x).win = screen.win.at (y, x) ∧ (wmove screen y x).image = screen.image := by
  rw [wmove, if_neg (not_or.mpr ⟨UInt8.not_lt.mpr below, UInt8.not_lt.mpr left⟩)]
  exact ⟨win_follow _ _ _, image_follow _ _ _⟩

theorem repaints_wmove (below : y ≤ screen.win.maxy) (left : x ≤ screen.win.maxx) :
    Repaints config screen (y, x) (picture config screen) (wmove screen y x) := by
  obtain ⟨win, image⟩ := wmove_eq below left
  refine ⟨win, fun _ _ _ _ => ?_, fun _ _ => ?_, fun plain => ?_⟩
  · rw [image]
    rfl
  · rw [image]
  · rw [image]
    exact plain

/-- The cursor behind so many characters of a row. -/
def columnEnd (win : Window) (y : UInt8) (column : Nat) : UInt8 × UInt8 :=
  if column ≤ win.maxx.toNat then (y, UInt8.ofNat column)
  else if win.linewrap then (y + 1, 0)
  else (y, win.maxx)

theorem image_emit (config : Config) (screen : Screen) {ch : UInt8} (plain : Plain ch) :
    (emit config screen ch).image =
      Function.update screen.image
        (cell config screen.win screen.win.y.toNat screen.win.x.toNat) ch := by
  rw [emit, if_neg plain.1, if_neg plain.2]
  by_cases same : screen.image (cell config screen.win screen.win.y.toNat screen.win.x.toNat) = ch
  · have kept : Function.update screen.image
        (cell config screen.win screen.win.y.toNat screen.win.x.toNat) ch = screen.image := by
      rw [← same, Function.update_eq_self]
    rw [kept]
    simp only [same, ne_eq, not_true_eq_false, if_false]
    split_ifs
    · exact image_follow ..
    · exact image_follow ..
    · rfl
  · simp only [same, ne_eq, not_false_eq_true, if_true]
    split_ifs
    · exact image_follow ..
    · exact image_follow ..
    · rfl

theorem win_emit {ch : UInt8} (plain : Plain ch) (left : screen.win.x ≤ screen.win.maxx) :
    (emit config screen ch).win =
      screen.win.at (columnEnd screen.win screen.win.y (screen.win.x.toNat + 1)) := by
  have order := UInt8.le_iff_toNat_le.mp left
  have cursor : (if screen.win.x = screen.win.maxx then
        if screen.win.linewrap then (screen.win.y + 1, 0) else (screen.win.y, screen.win.x)
      else (screen.win.y, screen.win.x + 1)) =
      columnEnd screen.win screen.win.y (screen.win.x.toNat + 1) := by
    rw [columnEnd]
    by_cases last : screen.win.x = screen.win.maxx
    · have full : ¬screen.win.x.toNat + 1 ≤ screen.win.maxx.toNat := by
        rw [last]
        omega
      rw [if_pos last, if_neg full, last]
    · have before := mt UInt8.toNat_inj.mp last
      have next : UInt8.ofNat (screen.win.x.toNat + 1) = screen.win.x + 1 := by
        rw [UInt8.ofNat_add, UInt8.ofNat_toNat]
        rfl
      rw [if_neg last, if_pos (by omega), next]
  rw [← cursor, emit, if_neg plain.1, if_neg plain.2]
  dsimp only
  split_ifs <;> simp only [win_follow]

/-- One character is painted under the cursor. -/
theorem repaints_emit {ch : UInt8} (inside : Inside config screen.win) (plain : Plain ch)
    (below : screen.win.y ≤ screen.win.maxy) (left : screen.win.x ≤ screen.win.maxx) :
    Repaints config screen (columnEnd screen.win screen.win.y (screen.win.x.toNat + 1))
      (fun y x => if y = screen.win.y.toNat ∧ x = screen.win.x.toNat then ch
        else picture config screen y x) (emit config screen ch) := by
  have image := image_emit config screen plain
  refine ⟨win_emit plain left, fun y x _ bound => ?_, fun index outside => ?_, fun all index => ?_⟩
  · have same : cell config screen.win y x =
          cell config screen.win screen.win.y.toNat screen.win.x.toNat ↔
        y = screen.win.y.toNat ∧ x = screen.win.x.toNat :=
      cell_inj inside bound (UInt8.le_iff_toNat_le.mp left)
    rw [image, Function.update_apply]
    simp only [same, picture]
  · rw [image, Function.update_of_ne]
    rintro rfl
    exact outside (owns_cell inside (UInt8.le_iff_toNat_le.mp below)
      (UInt8.le_iff_toNat_le.mp left))
  · rw [image, Function.update_apply]
    split_ifs
    · exact plain
    · exact all index

/-- The columns of a row from `start` up to `column` have been printed. -/
def RowPrinted (config : Config) (screen : Screen) (y : UInt8) (start : Nat)
    (chars : Nat → UInt8) (column : Nat) (next : Screen) : Prop :=
  Repaints config screen (columnEnd screen.win y column)
    (fun y' x => if y' = y.toNat ∧ start ≤ x ∧ x < column then chars x
      else picture config screen y' x) next

theorem rowPrinted_start (config : Config) (screen : Screen) (chars : Nat → UInt8)
    (left : screen.win.x ≤ screen.win.maxx) :
    RowPrinted config screen screen.win.y screen.win.x.toNat chars screen.win.x.toNat screen := by
  have begins := Repaints.refl config screen
  rw [RowPrinted, columnEnd, if_pos (UInt8.le_iff_toNat_le.mp left), UInt8.ofNat_toNat]
  refine begins.congr fun y x _ _ => ?_
  rw [if_neg (by omega)]

theorem RowPrinted.step {start column : Nat} {chars : Nat → UInt8}
    (printed : RowPrinted config screen y start chars column next)
    (inside : Inside config screen.win) (below : y ≤ screen.win.maxy) (first : start ≤ column)
    (left : column ≤ screen.win.maxx.toNat) (plain : Plain (chars column)) :
    next.win = screen.win.at (y, UInt8.ofNat column) ∧
      RowPrinted config screen y start chars (column + 1) (emit config next (chars column)) := by
  have win := printed.win
  rw [columnEnd, if_pos left] at win
  have place : (UInt8.ofNat column).toNat = column := by
    have small := inside.maxx
    rw [UInt8.toNat_ofNat']
    omega
  have cursorY : next.win.y = y := by
    rw [win]
    rfl
  have cursorX : next.win.x = UInt8.ofNat column := by
    rw [win]
    rfl
  have emits := repaints_emit (inside.moved win) plain
    (by rw [win]; exact below)
    (by rw [win]; exact UInt8.le_iff_toNat_le.mpr (Nat.le_trans (Nat.le_of_eq place) left))
  have painted := printed.trans emits
  rw [cursorY, cursorX, place, win] at painted
  refine ⟨win, painted.congr fun y' x below left => ?_⟩
  rw [printed.picture_eq below left]
  by_cases here : y' = y.toNat ∧ x = column
  · rw [if_pos here, if_pos (by omega), here.2]
  · rw [if_neg here]
    by_cases before : y' = y.toNat ∧ start ≤ x ∧ x < column
    · rw [if_pos before, if_pos (by omega)]
    · rw [if_neg before, if_neg (by omega)]

/-- The rule for a loop over a counter that does not wrap. -/
theorem forUpTo_rule {bound : Screen → Nat} {body : UInt8 → Screen → Option Screen}
    {invariant : Nat → Screen → Prop} {limit : Nat} (small : limit < 255)
    (bounded : ∀ i screen, invariant i screen → bound screen = limit)
    (turn : ∀ (i : UInt8) screen, i.toNat ≤ limit → invariant i.toNat screen →
      ∃ next, body i screen = some next ∧ invariant (i.toNat + 1) next)
    {fuel : Nat} {i : UInt8} (positive : 0 < fuel) (enough : limit + 1 < i.toNat + fuel)
    (initial : invariant i.toNat screen) :
    ∃ next, forUpTo bound body fuel i screen = some next ∧
      invariant (max i.toNat (limit + 1)) next := by
  induction fuel generalizing i screen with
  | zero => exact absurd positive (Nat.lt_irrefl 0)
  | succ fuel ih =>
      rw [forUpTo, bounded _ _ initial]
      by_cases more : i.toNat ≤ limit
      · obtain ⟨next, turned, kept⟩ := turn i screen more initial
        have counted : (i + 1).toNat = i.toNat + 1 := by
          rw [UInt8.toNat_add, show (1 : UInt8).toNat = 1 from rfl]
          omega
        obtain ⟨last, loops, final⟩ := ih (i := i + 1) (by omega) (by omega) (counted ▸ kept)
        rw [counted, Nat.max_eq_right (by omega)] at final
        refine ⟨last, ?_, by rwa [Nat.max_eq_right (by omega)]⟩
        rw [if_pos more, turned]
        exact loops
      · refine ⟨screen, if_neg more, ?_⟩
        rwa [Nat.max_eq_left (by omega)]

/-- The rule for printing some blanks. -/
theorem putBlanks_rule {waddch : Screen → UInt8 → Option Screen}
    {invariant : Nat → Screen → Prop} {last : Nat}
    (turn : ∀ i screen, i < last → invariant i screen →
      ∃ next, waddch screen blank = some next ∧ invariant (i + 1) next)
    {count i : Nat} (total : i + count = last) (initial : invariant i screen) :
    ∃ next, putBlanks waddch count screen = some next ∧ invariant last next := by
  induction count generalizing i screen with
  | zero => exact ⟨screen, rfl, total ▸ initial⟩
  | succ count ih =>
      obtain ⟨next, turned, kept⟩ := turn i screen (by omega) initial
      obtain ⟨final, loops, holds⟩ := ih (by omega) kept
      refine ⟨final, ?_, holds⟩
      rw [putBlanks, turned]
      exact loops

end Pictures

/-- Inside of the window a character is printed without scrolling. -/
def PrintsInside (config : Config) (waddch : Screen → UInt8 → Option Screen) : Prop :=
  ∀ screen ch, screen.win.y ≤ screen.win.maxy → waddch screen ch = some (emit config screen ch)

theorem printsInside_waddch (config : Config) (depth : Nat) :
    PrintsInside config (waddch config (depth + 1)) := by
  intro screen ch below
  rw [waddch, if_neg (UInt8.not_lt.mpr below)]

section Scrolling

variable {config : Config} {waddch : Screen → UInt8 → Option Screen} {screen next : Screen}
  {painting : Nat → Nat → UInt8} {cursor : UInt8 × UInt8}

theorem blanks_count (left : screen.win.x ≤ screen.win.maxx) (small : screen.win.maxx.toNat < 255) :
    screen.win.x.toNat + (screen.win.maxx - screen.win.x + 1).toNat =
      screen.win.maxx.toNat + 1 := by
  have order := UInt8.le_iff_toNat_le.mp left
  rw [UInt8.toNat_add, UInt8.toNat_sub_of_le _ _ left, show (1 : UInt8).toNat = 1 from rfl]
  omega

/-- The rest of the row is printed with blanks. -/
theorem wspacetoeol_eq (prints : PrintsInside config waddch) (inside : Inside config screen.win)
    (below : screen.win.y ≤ screen.win.maxy) (left : screen.win.x ≤ screen.win.maxx) :
    ∃ next, wspacetoeol waddch screen = some next ∧
      RowPrinted config screen screen.win.y screen.win.x.toNat (fun _ => blank)
        (screen.win.maxx.toNat + 1) next := by
  have turn (column : Nat) (before : Screen) (more : column < screen.win.maxx.toNat + 1)
      (printed : screen.win.x.toNat ≤ column ∧ RowPrinted config screen screen.win.y
        screen.win.x.toNat (fun _ => blank) column before) :
      ∃ next, waddch before blank = some next ∧ screen.win.x.toNat ≤ column + 1 ∧
        RowPrinted config screen screen.win.y screen.win.x.toNat (fun _ => blank) (column + 1)
          next := by
    obtain ⟨first, printed⟩ := printed
    obtain ⟨win, stepped⟩ := printed.step inside below first (Nat.le_of_lt_succ more) plain_blank
    refine ⟨_, prints before blank ?_, Nat.le_succ_of_le first, stepped⟩
    rw [win]
    exact below
  obtain ⟨next, loops, -, printed⟩ := putBlanks_rule turn (blanks_count left inside.maxx)
    ⟨Nat.le_refl _, rowPrinted_start config screen _ left⟩
  exact ⟨next, loops, printed⟩

/-- The cursor is moved in front of a row, wherever it was. -/
theorem Repaints.wmove (repaints : Repaints config screen cursor painting next) {y x : UInt8}
    (below : y ≤ screen.win.maxy) (left : x ≤ screen.win.maxx) :
    (wmove next y x).win = screen.win.at (y, x) ∧
      Repaints config screen (y, x) painting (wmove next y x) := by
  have below' : y ≤ next.win.maxy := by rw [repaints.win]; exact below
  have left' : x ≤ next.win.maxx := by rw [repaints.win]; exact left
  have moves := repaints.trans (repaints_wmove below' left')
  exact ⟨moves.win, moves.congr fun _ _ => repaints.picture_eq⟩

/-- A row is printed on what the window shows. -/
theorem Repaints.row (repaints : Repaints config screen cursor painting next) {y : UInt8}
    {start column : Nat} {chars : Nat → UInt8} {last : Screen}
    (printed : RowPrinted config next y start chars column last) :
    Repaints config screen (columnEnd screen.win y column)
      (fun y' x => if y' = y.toNat ∧ start ≤ x ∧ x < column then chars x else painting y' x)
      last := by
  have painted := repaints.trans printed
  rw [repaints.win] at painted
  refine painted.congr fun y' x below left => ?_
  rw [repaints.picture_eq below left]

/-- The rows from here on are printed with blanks. -/
theorem clearRows_eq (prints : PrintsInside config waddch) (inside : Inside config screen.win)
    {y : UInt8} (order : y.toNat ≤ screen.win.maxy.toNat + 1)
    (repaints : Repaints config screen cursor painting next) :
    ∃ last cursor', clearRows waddch y next = some last ∧
      Repaints config screen cursor'
        (fun y' x => if y.toNat ≤ y' then blank else painting y' x) last := by
  have turn (row : UInt8) (before : Screen) (more : row.toNat ≤ screen.win.maxy.toNat)
      (cleared : y.toNat ≤ row.toNat ∧ ∃ cursor', Repaints config screen cursor'
        (fun y' x => if y.toNat ≤ y' ∧ y' < row.toNat then blank else painting y' x) before) :
      ∃ after, wspacetoeol waddch (wmove before row 0) = some after ∧
        y.toNat ≤ row.toNat + 1 ∧ ∃ cursor', Repaints config screen cursor'
          (fun y' x => if y.toNat ≤ y' ∧ y' < row.toNat + 1 then blank else painting y' x)
          after := by
    obtain ⟨first, cursor', cleared⟩ := cleared
    obtain ⟨win, moved⟩ := cleared.wmove (UInt8.le_iff_toNat_le.mpr more) UInt8.zero_le
    have below : (wmove before row 0).win.y ≤ (wmove before row 0).win.maxy := by
      rw [win]
      exact UInt8.le_iff_toNat_le.mpr more
    have left : (wmove before row 0).win.x ≤ (wmove before row 0).win.maxx := by
      rw [win]
      exact UInt8.zero_le
    obtain ⟨after, loops, printed⟩ := wspacetoeol_eq prints (inside.moved win) below left
    refine ⟨after, loops, Nat.le_succ_of_le first, _, (moved.row printed).congr ?_⟩
    intro y' x _ bound
    simp only [win, Window.y_at, Window.x_at, Window.maxx_at, UInt8.toNat_zero]
    rw [← ite_or]
    exact if_congr (by omega) rfl rfl
  have bounded (row : Nat) (before : Screen)
      (cleared : y.toNat ≤ row ∧ ∃ cursor', Repaints config screen cursor'
        (fun y' x => if y.toNat ≤ y' ∧ y' < row then blank else painting y' x) before) :
      before.win.maxy.toNat = screen.win.maxy.toNat := by
    obtain ⟨-, cursor', cleared⟩ := cleared
    rw [cleared.win]
    rfl
  have small := inside.maxy
  obtain ⟨last, loops, -, cursor', cleared⟩ := forUpTo_rule small bounded turn
    (by decide : 0 < 256) (by omega) ⟨Nat.le_refl _, cursor, repaints.congr fun y' x _ _ => by
      rw [if_neg (by omega)]⟩
  exact ⟨last, cursor', loops, cleared.congr fun y' x below _ => if_congr (by omega) rfl rfl⟩

/-- The window is blank behind its cursor. -/
theorem wclrtobot_eq (prints : PrintsInside config waddch) (inside : Inside config screen.win)
    (below : screen.win.y ≤ screen.win.maxy) (left : screen.win.x ≤ screen.win.maxx) :
    ∃ next, wclrtobot waddch screen = some next ∧
      Repaints config screen (screen.win.y, screen.win.x)
        (fun y x => if (y = screen.win.y.toNat ∧ screen.win.x.toNat ≤ x) ∨ screen.win.y.toNat < y
          then blank else picture config screen y x) next := by
  have small := inside.maxy
  have order := UInt8.le_iff_toNat_le.mp below
  have counted : (screen.win.y + 1).toNat = screen.win.y.toNat + 1 := by
    rw [UInt8.toNat_add, show (1 : UInt8).toNat = 1 from rfl]
    omega
  obtain ⟨cleared, first, printed⟩ := wspacetoeol_eq prints inside below left
  obtain ⟨last, cursor', rows, repaints⟩ := clearRows_eq (y := screen.win.y + 1) prints inside
    (by omega) printed
  obtain ⟨-, moved⟩ := repaints.wmove below left
  refine ⟨wmove last screen.win.y screen.win.x, ?_, moved.congr fun y x _ bound => ?_⟩
  · rw [wclrtobot, first, Option.bind_some, rows]
    rfl
  · rw [counted, ← ite_or]
    exact if_congr (by omega) rfl rfl

theorem wclear_eq (prints : PrintsInside config waddch) (inside : Inside config screen.win) :
    ∃ next, wclear config waddch screen = some next ∧
      Repaints config screen (0, 0) (fun _ _ => blank) next := by
  rw [wclear]
  by_cases root : screen.win.subwin = false
  · refine ⟨_, if_pos (by rw [root]; rfl), rfl, fun y x below left => ?_, fun index outside => ?_,
      fun plain index => ?_⟩
    · have owned := owns_cell inside below left
      rw [Owns, root, if_neg Bool.false_ne_true] at owned
      dsimp only
      rw [fillBlock, writeBlock_inside (Nat.zero_le _) (by rw [List.length_replicate]; omega),
        List.getD_replicate _ (by omega)]
    · rw [Owns, root, if_neg Bool.false_ne_true] at outside
      exact writeBlock_outside (Or.inr (by rw [List.length_replicate]; omega))
    · dsimp only
      rw [fillBlock]
      by_cases inImage : index < config.lines * config.cols
      · rw [writeBlock_inside (Nat.zero_le _) (by rw [List.length_replicate]; omega),
          List.getD_replicate _ (by omega)]
        exact plain_blank
      · rw [writeBlock_outside (Or.inr (by rw [List.length_replicate]; omega))]
        exact plain index
  · obtain ⟨win, moved⟩ := (Repaints.refl config screen).wmove (y := 0) (x := 0)
      UInt8.zero_le UInt8.zero_le
    obtain ⟨next, clears, cleared⟩ := wclrtobot_eq prints (inside.moved win)
      (by rw [win]; exact UInt8.zero_le) (by rw [win]; exact UInt8.zero_le)
    refine ⟨next, ?_, ?_⟩
    · rw [if_neg (by simpa using root)]
      exact clears
    · have all := moved.trans cleared
      rw [win] at all
      refine all.congr fun y x _ _ => if_pos ?_
      rw [Window.y_at, Window.x_at, UInt8.toNat_zero]
      omega

/-- A row is printed with the characters of a row below. -/
theorem copyRow_eq (prints : PrintsInside config waddch) (inside : Inside config screen.win)
    (plain : ∀ index, Plain (screen.image index)) {lines : UInt8} (some_ : 0 < lines.toNat)
    (bound : screen.win.y.toNat + lines.toNat ≤ screen.win.maxy.toNat) (start : screen.win.x = 0) :
    ∃ next, copyRow config waddch lines screen.win.y screen = some next ∧
      RowPrinted config screen screen.win.y 0
        (fun x => picture config screen (screen.win.y.toNat + lines.toNat) x)
        (screen.win.maxx.toNat + 1) next := by
  have below : screen.win.y ≤ screen.win.maxy := UInt8.le_iff_toNat_le.mpr (by omega)
  have turn (column : UInt8) (before : Screen) (more : column.toNat ≤ screen.win.maxx.toNat)
      (printed : RowPrinted config screen screen.win.y 0
        (fun x => picture config screen (screen.win.y.toNat + lines.toNat) x) column.toNat before) :
      ∃ next, waddch before (before.image (cell config before.win
          (screen.win.y.toNat + lines.toNat) before.win.x.toNat)) = some next ∧
        RowPrinted config screen screen.win.y 0
          (fun x => picture config screen (screen.win.y.toNat + lines.toNat) x) (column.toNat + 1)
          next := by
    obtain ⟨win, stepped⟩ := printed.step inside below (Nat.zero_le _) more (plain _)
    have char : before.image (cell config before.win (screen.win.y.toNat + lines.toNat)
        before.win.x.toNat) =
        picture config screen (screen.win.y.toNat + lines.toNat) column.toNat := by
      -- the row below has not been printed on
      have shown := printed.picture_eq bound more
      rw [if_neg (by omega), picture] at shown
      rw [← shown, show before.win.x = column by rw [win]; exact UInt8.ofNat_toNat]
    rw [char]
    refine ⟨_, prints before _ ?_, stepped⟩
    rw [win]
    exact below
  have bounded (column : Nat) (before : Screen)
      (printed : RowPrinted config screen screen.win.y 0
        (fun x => picture config screen (screen.win.y.toNat + lines.toNat) x) column before) :
      before.win.maxx.toNat = screen.win.maxx.toNat := by
    rw [printed.win]
    rfl
  have begins := rowPrinted_start config screen
    (fun x => picture config screen (screen.win.y.toNat + lines.toNat) x)
    (by rw [start]; exact UInt8.zero_le)
  have small := inside.maxx
  rw [start] at begins
  obtain ⟨next, loops, printed⟩ := forUpTo_rule small bounded turn (by decide : 0 < 256) (i := 0)
    (by omega) begins
  refine ⟨next, loops, ?_⟩
  rwa [UInt8.toNat_zero, Nat.zero_max] at printed

/-- The rows are printed one after the other, each before it is printed on. -/
theorem copyRows_eq (prints : PrintsInside config waddch) (inside : Inside config screen.win)
    (plain : ∀ index, Plain (screen.image index)) {lines : UInt8} (some_ : 0 < lines.toNat)
    (few : lines.toNat ≤ screen.win.maxy.toNat) :
    ∃ next cursor, copyRows config waddch lines screen = some next ∧
      Repaints config screen cursor
        (fun y x => if y + lines.toNat ≤ screen.win.maxy.toNat then
          picture config screen (y + lines.toNat) x else picture config screen y x) next := by
  have turn (row : UInt8) (before : Screen)
      (more : row.toNat ≤ screen.win.maxy.toNat - lines.toNat)
      (copied : ∃ cursor, Repaints config screen cursor
        (fun y x => if y < row.toNat then picture config screen (y + lines.toNat) x
          else picture config screen y x) before) :
      ∃ next, copyRow config waddch lines row (wmove before row 0) = some next ∧
        ∃ cursor, Repaints config screen cursor
          (fun y x => if y < row.toNat + 1 then picture config screen (y + lines.toNat) x
            else picture config screen y x) next := by
    obtain ⟨cursor, copied⟩ := copied
    have rowLe : row ≤ screen.win.maxy := UInt8.le_iff_toNat_le.mpr (by omega)
    obtain ⟨win, moved⟩ := copied.wmove rowLe UInt8.zero_le
    have row_ : (wmove before row 0).win.y = row := by
      rw [win]
      rfl
    obtain ⟨next, loops, printed⟩ := copyRow_eq prints (inside.moved win) (moved.plain plain) some_
      (by rw [row_, win, Window.maxy_at]; omega) (by rw [win]; rfl)
    rw [row_] at loops printed
    refine ⟨next, loops, _, (moved.row printed).congr fun y x below left => ?_⟩
    have source : row.toNat + lines.toNat ≤ screen.win.maxy.toNat := by omega
    have below_ : ¬row.toNat + lines.toNat < row.toNat := by omega
    rw [moved.picture_eq source left, if_neg below_]
    by_cases here : y = row.toNat
    · have printedHere : y = row.toNat ∧ 0 ≤ x ∧ x < (wmove before row 0).win.maxx.toNat + 1 := by
        rw [win, Window.maxx_at]
        omega
      rw [if_pos printedHere, if_pos (by omega), here]
    · rw [if_neg fun printedHere => here printedHere.1]
      exact if_congr (by omega) rfl rfl
  have bounded (row : Nat) (before : Screen)
      (copied : ∃ cursor, Repaints config screen cursor
        (fun y x => if y < row then picture config screen (y + lines.toNat) x
          else picture config screen y x) before) :
      before.win.maxy.toNat - lines.toNat = screen.win.maxy.toNat - lines.toNat := by
    obtain ⟨cursor, copied⟩ := copied
    rw [copied.win]
    rfl
  have small := inside.maxy
  obtain ⟨next, loops, cursor, copied⟩ := forUpTo_rule (by omega) bounded turn
    (by decide : 0 < 256) (i := 0) (by omega)
    ⟨_, (Repaints.refl config screen).congr fun y x _ _ => (if_neg (Nat.not_lt_zero y)).symm⟩
  rw [UInt8.toNat_zero, Nat.zero_max] at copied
  exact ⟨next, cursor, loops, copied.congr fun y x _ _ => if_congr (by omega) rfl rfl⟩

/-- The rows move up, and the last ones are blank. -/
theorem wscroll_eq (prints : PrintsInside config waddch) (inside : Inside config screen.win)
    (plain : ∀ index, Plain (screen.image index)) {lines : UInt8} (some_ : 0 < lines.toNat)
    (few : lines.toNat ≤ screen.win.maxy.toNat) :
    ∃ next, wscroll config waddch screen lines = some next ∧
      Repaints config screen (screen.win.maxy - lines + 1, 0)
        (fun y x => if y + lines.toNat ≤ screen.win.maxy.toNat then
          picture config screen (y + lines.toNat) x else blank) next := by
  obtain ⟨copied, cursor, loops, repaints⟩ := copyRows_eq prints inside plain some_ few
  have small := inside.maxy
  have first : (screen.win.maxy - lines + 1).toNat = screen.win.maxy.toNat - lines.toNat + 1 := by
    rw [UInt8.toNat_add, UInt8.toNat_sub_of_le _ _ (UInt8.le_iff_toNat_le.mpr few),
      show (1 : UInt8).toNat = 1 from rfl]
    omega
  have below : screen.win.maxy - lines + 1 ≤ screen.win.maxy :=
    UInt8.le_iff_toNat_le.mpr (by omega)
  obtain ⟨win, moved⟩ := repaints.wmove below UInt8.zero_le
  obtain ⟨next, clears, cleared⟩ := wclrtobot_eq prints (inside.moved win)
    (by rw [win]; exact below) (by rw [win]; exact UInt8.zero_le)
  refine ⟨next, ?_, ?_⟩
  · rw [wscroll, if_neg (UInt8.not_lt.mpr (UInt8.le_iff_toNat_le.mpr few)), loops,
      Option.bind_some, repaints.win, Window.maxy_at]
    exact clears
  · have all := moved.trans cleared
    rw [win] at all
    refine all.congr fun y x below left => ?_
    rw [moved.picture_eq below left, Window.y_at, Window.x_at, first, UInt8.toNat_zero]
    by_cases copiedRow : y + lines.toNat ≤ screen.win.maxy.toNat
    · rw [if_neg (by omega), if_pos copiedRow, if_pos copiedRow]
    · rw [if_pos (by omega), if_neg copiedRow]

end Scrolling

end Ethersex.Tty
