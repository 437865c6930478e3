import Gravel.Kernel.State

/-!
# Console input and output

`read_syscall` and `write_syscall` of `io.c`. The console is the list of the
characters still to be received; a call that needs one more waits in `getc`. What
a call does to memory and to the console is recorded in order.

## Main definitions

* `Reading`, `readLoop`, `readSyscall`
* `Writing`, `writeLoop`, `writeSyscall`
-/

namespace Gravel

/-- A `size_t` returned as a `ssize_t`. -/
def ssize (n : UInt32) : ℤ := n.toInt32.toInt

/-- What a call of `read` has done: its stores, its output, the characters it has not
received, and what it returns, unless it waits for a character. -/
structure Reading where
  stores : List (UInt32 × UInt8)
  echo : List UInt8
  rest : List UInt8
  result : Option ℤ
  deriving DecidableEq, Repr

/-- A store, and what follows it. -/
def Reading.store (addr : UInt32) (c : UInt8) (r : Reading) : Reading :=
  { r with stores := (addr, c) :: r.stores }

/-- Output, and what follows it. -/
def Reading.puts (s : List UInt8) (r : Reading) : Reading :=
  { r with echo := s ++ r.echo }

def Reading.ret (code : ℤ) (rest : List UInt8) : Reading :=
  { stores := [], echo := [], rest := rest, result := some code }

/-- The `while` loop of `read_syscall`. -/
def readLoop (buf count : UInt32) : List UInt8 → UInt32 → Reading
  | [], offset =>
    if offset = count then .ret (ssize offset) []
    else { stores := [], echo := [], rest := [], result := none }
  | c :: rest, offset =>
    if offset = count then .ret (ssize offset) (c :: rest)
    -- EOT
    else if c = 4 then .ret (ssize offset) rest
    -- Backspace and delete
    else if c = 8 ∨ c = 127 then
      if offset > 0 then (readLoop buf count rest (offset - 1)).puts [8, 32, 8]
      else readLoop buf count rest offset
    else if c = 10 ∨ c = 13 then
      ((Reading.ret (ssize offset) rest).puts [10]).store (buf + offset) 10
    else ((readLoop buf count rest (offset + 1)).store (buf + offset) c).puts [c]

def readSyscall (fd : ℤ) (buf count : UInt32) (input : List UInt8) : Reading :=
  if fd ≠ Config.stdinFileno then .ret (-Config.ebadf) input
  else if buf < Config.ramStartAddr ∨ buf + count - 1 > Config.ramEndAddr then
    .ret (-Config.efault) input
  else readLoop buf count input 0

/-- What a call of `write` has done: the addresses it has loaded from, its output, and
what it returns. -/
structure Writing where
  loads : List UInt32
  echo : List UInt8
  result : ℤ
  deriving DecidableEq, Repr

/-- The loads of the `while` loop of `write_syscall`, with so many rounds left. -/
def writeLoop (buf : UInt32) : ℕ → UInt32 → List UInt32
  | 0, _ => []
  | rounds + 1, nwritten => (buf + nwritten) :: writeLoop buf rounds (nwritten + 1)

def writeSyscall (mem : UInt32 → UInt8) (fd : ℤ) (buf count : UInt32) : Writing :=
  if (buf < Config.ramStartAddr ∨ buf + count - 1 > Config.ramEndAddr) ∧
      buf + count - 1 > Config.flashEndAddr then
    { loads := [], echo := [], result := -Config.efault }
  -- The descriptor is looked at after the range.
  else if fd ≠ Config.stdoutFileno then { loads := [], echo := [], result := -Config.ebadf }
  else
    let loads := writeLoop buf count.toNat 0
    { loads := loads, echo := loads.map mem, result := ssize count }

/-! ### One character -/

section Loop

variable {buf count offset : UInt32} {c : UInt8} {rest input : List UInt8}

/-- With `count` characters in the buffer nothing more is received. -/
theorem readLoop_full : readLoop buf count input count = .ret (ssize count) input := by
  cases input <;> simp [readLoop]

theorem readLoop_eot (room : offset ≠ count) :
    readLoop buf count (4 :: rest) offset = .ret (ssize offset) rest := by
  simp [readLoop, room]

/-- Backspace and delete drop the last character, if there is one. -/
theorem readLoop_erase (room : offset ≠ count) (erase : c = 8 ∨ c = 127) :
    readLoop buf count (c :: rest) offset =
      if offset > 0 then (readLoop buf count rest (offset - 1)).puts [8, 32, 8]
      else readLoop buf count rest offset := by
  have other : c ≠ 4 := by rcases erase with rfl | rfl <;> decide
  simp only [readLoop, room, other, erase, if_true, if_false]

theorem readLoop_newline (room : offset ≠ count) (newline : c = 10 ∨ c = 13) :
    readLoop buf count (c :: rest) offset =
      ((Reading.ret (ssize offset) rest).puts [10]).store (buf + offset) 10 := by
  have other : c ≠ 4 ∧ ¬ (c = 8 ∨ c = 127) := by rcases newline with rfl | rfl <;> decide
  simp only [readLoop, room, other.1, other.2, newline, if_true, if_false]

/-- The characters that do not control the loop. -/
def Ordinary (c : UInt8) : Prop := c ≠ 4 ∧ ¬ (c = 8 ∨ c = 127) ∧ ¬ (c = 10 ∨ c = 13)

theorem readLoop_ordinary (room : offset ≠ count) (ordinary : Ordinary c) :
    readLoop buf count (c :: rest) offset =
      ((readLoop buf count rest (offset + 1)).store (buf + offset) c).puts [c] := by
  simp only [readLoop, room, ordinary.1, ordinary.2.1, ordinary.2.2, if_false]

theorem ordinary_or_control (c : UInt8) :
    c = 4 ∨ (c = 8 ∨ c = 127) ∨ (c = 10 ∨ c = 13) ∨ Ordinary c := by
  unfold Ordinary
  tauto

@[simp] theorem stores_ret (code : ℤ) : (Reading.ret code rest).stores = [] := rfl

@[simp] theorem stores_puts (s : List UInt8) (r : Reading) : (r.puts s).stores = r.stores := rfl

@[simp] theorem stores_store (addr : UInt32) (r : Reading) :
    (r.store addr c).stores = (addr, c) :: r.stores := rfl

end Loop

end Gravel
