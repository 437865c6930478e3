import Mathlib.Data.List.GetD
import Mathlib.Order.Lattice
import Mathlib.Order.Basic
import Mathlib.Logic.Function.Basic

/-!
# A line editor and its screen

The editor holds a list of characters: an ordinary key appends its character, an erasing key
drops the last one, and the line ends with a key that ends it or when it holds `count`
characters. The screen is one line of cells with a cursor.

## Main definitions

* `Key`, `Stop`, `Edit` — what a key does, why the editor stops, and what it has done
* `editLine` — the editor on a list of characters
* `Screen`, `Screen.put`, `Screen.replay` — output on a screen
* `Shows` — a screen shows a line, followed by blanks

## Main results

* `length_le_longest` — the line so far counts among the prefixes reached
* `Shows.type`, `Shows.erase` — typing and erasing on the screen
-/

namespace Gravel.Library

inductive Key
  | ordinary
  | erase
  | newline
  | eot
  deriving DecidableEq

/-- Why the editor stops: the line is full, or a key has ended it. -/
inductive Stop
  | full
  | newline
  | eot
  deriving DecidableEq

/-- The line that is left, the characters not taken, the greatest length the line has had, and
why the editor has stopped, unless it waits for a character. -/
structure Edit (α : Type*) where
  line : List α
  rest : List α
  longest : ℕ
  stop : Option Stop

variable {α : Type*} {key : α → Key} {count start : ℕ} {c back blank : α} {input line : List α}

/-- The line has had this length before. -/
def Edit.reach (n : ℕ) (e : Edit α) : Edit α := { e with longest := max n e.longest }

/-- The editor, with the line so far. -/
def editLine (key : α → Key) (count : ℕ) : List α → List α → Edit α
  | [], line =>
    { line := line, rest := [], longest := line.length
      stop := if line.length = count then some .full else none }
  | c :: rest, line =>
    if line.length = count then
      { line := line, rest := c :: rest, longest := line.length, stop := some .full }
    else
      match key c with
      | .ordinary => (editLine key count rest (line ++ [c])).reach line.length
      | .erase => (editLine key count rest line.dropLast).reach line.length
      | .newline => { line := line, rest := rest, longest := line.length, stop := some .newline }
      | .eot => { line := line, rest := rest, longest := line.length, stop := some .eot }

theorem length_le_longest : line.length ≤ (editLine key count input line).longest := by
  cases input with
  | nil => exact le_rfl
  | cons c rest =>
    rw [editLine]
    split
    · exact le_rfl
    · split
      · exact le_max_left _ _
      · exact le_max_left _ _
      · exact le_rfl
      · exact le_rfl

/-- A full line takes no more characters. -/
theorem editLine_full (full : line.length = count) : editLine key count input line =
    { line := line, rest := input, longest := line.length, stop := some .full } := by
  cases input with
  | nil => rw [editLine, if_pos full]
  | cons c rest => rw [editLine, if_pos full]

/-! ### The screen -/

/-- The cells of a line, and the column of the cursor. -/
structure Screen (α : Type*) where
  cells : ℕ → α
  cursor : ℕ

/-- A character goes to the cell at the cursor, but `back` moves the cursor left. -/
def Screen.put [DecidableEq α] (back : α) (s : Screen α) (c : α) : Screen α :=
  if c = back then { s with cursor := s.cursor - 1 }
  else { cells := Function.update s.cells s.cursor c, cursor := s.cursor + 1 }

def Screen.replay [DecidableEq α] (back : α) (s : Screen α) (cs : List α) : Screen α :=
  cs.foldl (Screen.put back) s

/-- From column `start` on the screen shows the line and then only blanks, and the cursor is at
the end of the line. -/
structure Shows (blank : α) (start : ℕ) (line : List α) (s : Screen α) : Prop where
  cursor : s.cursor = start + line.length
  cells : ∀ k, s.cells (start + k) = line.getD k blank

variable [DecidableEq α] {s : Screen α}

/-- An ordinary character appears at the end of the line. -/
theorem Shows.type (shows : Shows blank start line s) (other : c ≠ back) :
    Shows blank start (line ++ [c]) (s.put back c) := by
  rw [Screen.put, if_neg other, shows.cursor]
  refine ⟨by rw [List.length_append]; rfl, fun k => ?_⟩
  dsimp only
  rcases Nat.lt_trichotomy k line.length with inside | rfl | beyond
  · rw [Function.update_of_ne (by omega), shows.cells, List.getD_append _ _ _ _ inside]
  · rw [Function.update_self, List.getD_append_right _ _ _ _ le_rfl, Nat.sub_self]
    rfl
  · rw [Function.update_of_ne (by omega), shows.cells, List.getD_eq_default _ _ beyond.le,
      List.getD_eq_default]
    rw [List.length_append]
    exact beyond

/-- Left, a blank and left again take the last character off the screen. -/
theorem Shows.erase (shows : Shows blank start (line ++ [c]) s) (other : blank ≠ back) :
    Shows blank start line (s.replay back [back, blank, back]) := by
  have length : (line ++ [c]).length = line.length + 1 := List.length_append
  have cursor : s.cursor - 1 = start + line.length := by
    rw [shows.cursor, length]
    omega
  simp only [Screen.replay, List.foldl_cons, List.foldl_nil, Screen.put, if_true, other, if_false,
    cursor]
  refine ⟨rfl, fun k => ?_⟩
  dsimp only
  rcases Nat.lt_trichotomy k line.length with inside | rfl | beyond
  · rw [Function.update_of_ne (by omega), shows.cells, List.getD_append _ _ _ _ inside]
  · rw [Function.update_self, List.getD_eq_default _ _ le_rfl]
  · rw [Function.update_of_ne (by omega), shows.cells, List.getD_eq_default _ _ beyond.le,
      List.getD_eq_default]
    rw [length]
    exact beyond

end Gravel.Library
