import Gravel.Kernel.Io
import Gravel.Library.ByteMemory
import Gravel.Library.LineEditor

/-!
# `read` as a line editor

`read_syscall` keeps the line in the caller's buffer and an offset behind it. It follows the line
editor: the buffer holds the editor's line, and what has been put on the console shows it.

## Main definitions

* `keyOf` — the characters that `read_syscall` treats alike
* `ValidBuffer` — the buffer lies in RAM
* `storeAll`, `bytesAt` — the stores of a call, carried out, and the bytes of a buffer
* `Follows` — a call does what the editor does

## Main results

* `readLoop_follows` — one key at a time
* `readSyscall_follows` — with a valid buffer `read` is the editor
-/

namespace Gravel

open Library

def keyOf (c : UInt8) : Key :=
  if c = 4 then .eot
  else if c = 8 ∨ c = 127 then .erase
  else if c = 10 ∨ c = 13 then .newline
  else .ordinary

/-- All bytes of the buffer are in RAM. -/
def ValidBuffer (buf count : UInt32) : Prop :=
  Config.ramStartAddr ≤ buf ∧ buf.toNat + count.toNat ≤ Config.ramEndAddr.toNat + 1

instance (buf count : UInt32) : Decidable (ValidBuffer buf count) :=
  inferInstanceAs (Decidable (_ ∧ _))

/-- The memory after some stores. -/
def storeAll (m : Memory) (stores : List (UInt32 × UInt8)) : Memory :=
  stores.foldl (fun m store => Function.update m store.1 store.2) m

/-- The first `n` bytes of a buffer. -/
def bytesAt (m : Memory) (buf : UInt32) (n : ℕ) : List UInt8 :=
  (List.range n).map fun k => m (buf + .ofNat k)

/-- What the editor leaves in the buffer: its line, and the newline that has ended it. -/
def Library.Edit.buffer (e : Edit UInt8) : List UInt8 :=
  e.line ++ if e.stop = some .newline then [10] else []

/-- What has been read, stored and put on the console is what the editor has done, starting with
a line that is in the buffer and on the screen. -/
structure Follows (buf count : UInt32) (line : List UInt8) (r : Reading) (e : Edit UInt8) :
    Prop where
  rest : r.rest = e.rest
  result : r.result = e.stop.map fun _ => (e.line.length : ℤ)
  bytes : ∀ m, bytesAt m buf line.length = line →
    bytesAt (storeAll m r.stores) buf e.buffer.length = e.buffer
  confined : ∀ store ∈ r.stores, ∃ k < count.toNat, store.1 = buf + .ofNat k ∧
    (k < e.longest ∨ e.stop = some .newline ∧ k = e.line.length)
  screen : ∃ body, r.echo = body ++ (if e.stop = some .newline then [10] else []) ∧
    ∀ start s, Shows 32 start line s → Shows 32 start e.line (s.replay 8 body)

variable {buf count : UInt32} {line input rest : List UInt8} {c : UInt8} {r : Reading}
  {e : Edit UInt8} {m : Memory} {n k : ℕ}

/-! ### Keys -/

theorem keyOf_eot : keyOf 4 = .eot := rfl

theorem keyOf_erase (erase : c = 8 ∨ c = 127) : keyOf c = .erase := by
  rcases erase with rfl | rfl <;> rfl

theorem keyOf_newline (newline : c = 10 ∨ c = 13) : keyOf c = .newline := by
  rcases newline with rfl | rfl <;> rfl

theorem keyOf_ordinary (ordinary : Ordinary c) : keyOf c = .ordinary := by
  rw [keyOf, if_neg ordinary.1, if_neg ordinary.2.1, if_neg ordinary.2.2]

/-! ### Bytes of the buffer -/

theorem bytesAt_succ : bytesAt m buf (n + 1) = bytesAt m buf n ++ [m (buf + .ofNat n)] := by
  rw [bytesAt, List.range_succ, List.map_append]
  rfl

theorem length_bytesAt : (bytesAt m buf n).length = n := by
  rw [bytesAt, List.length_map, List.length_range]

/-- A store past the bytes does not change them. -/
theorem bytesAt_update (small : k < 2 ^ 32) (past : n ≤ k) :
    bytesAt (Function.update m (buf + .ofNat k) c) buf n = bytesAt m buf n := by
  refine List.map_congr_left fun i member => Function.update_of_ne (fun same => ?_) _ _
  have inside := List.mem_range.mp member
  have offsets := (UInt32.add_right_inj buf).mp same
  have values := congrArg UInt32.toNat offsets
  rw [toNat_ofNat_of_lt (by omega),
    UInt32.toNat_ofNat_of_lt' small] at values
  omega

/-- The character stored behind the line is the last one of the longer line. -/
theorem bytesAt_typed (small : line.length < 2 ^ 32) (held : bytesAt m buf line.length = line) :
    bytesAt (Function.update m (buf + .ofNat line.length) c) buf (line ++ [c]).length =
      line ++ [c] := by
  rw [List.length_append]
  show bytesAt _ buf (line.length + 1) = _
  rw [bytesAt_succ, bytesAt_update small le_rfl, held, Function.update_self]

theorem bytesAt_of_append (held : bytesAt m buf (line ++ [c]).length = line ++ [c]) :
    bytesAt m buf line.length = line := by
  rw [List.length_append] at held
  exact (List.append_inj (bytesAt_succ.symm.trans held) length_bytesAt).1

/-! ### One key -/

@[simp] theorem buffer_reach : (e.reach n).buffer = e.buffer := rfl

/-- An ordinary character is stored behind the line and put on the screen. -/
theorem Follows.typed (follows : Follows buf count (line ++ [c]) r e)
    (room : line.length < count.toNat) (ordinary : Ordinary c)
    (reached : (line ++ [c]).length ≤ e.longest) :
    Follows buf count line ((r.store (buf + .ofNat line.length) c).puts [c])
      (e.reach line.length) where
  rest := follows.rest
  result := follows.result
  bytes m held := by
    have small := room.trans count.toNat_lt
    exact follows.bytes _ (bytesAt_typed small held)
  confined store member := by
    rcases List.mem_cons.mp member with rfl | later
    · rw [List.length_append] at reached
      exact ⟨line.length, room, rfl, .inl (lt_max_of_lt_right reached)⟩
    · obtain ⟨k, inside, same, within⟩ := follows.confined store later
      exact ⟨k, inside, same, within.imp_left lt_max_of_lt_right⟩
  screen := by
    obtain ⟨body, echo, shown⟩ := follows.screen
    refine ⟨c :: body, congrArg (c :: ·) echo, fun start s shows => ?_⟩
    exact shown start _ (shows.type fun back => ordinary.2.1 (.inl back))

/-- Erasing shortens the line in the buffer and on the screen. -/
theorem Follows.erased (follows : Follows buf count line r e) (c : UInt8) :
    Follows buf count (line ++ [c]) (r.puts [8, 32, 8]) (e.reach (line ++ [c]).length) where
  rest := follows.rest
  result := follows.result
  bytes m held := follows.bytes m (bytesAt_of_append held)
  confined store member := by
    obtain ⟨k, inside, same, within⟩ := follows.confined store member
    exact ⟨k, inside, same, within.imp_left lt_max_of_lt_right⟩
  screen := by
    obtain ⟨body, echo, shown⟩ := follows.screen
    refine ⟨[8, 32, 8] ++ body, ?_, fun start s shows => ?_⟩
    · rw [List.append_assoc]
      exact congrArg ([8, 32, 8] ++ ·) echo
    · have gone : Shows 32 start line (s.replay 8 [8, 32, 8]) := shows.erase (by decide)
      exact shown start _ gone

/-- A length that the line has anyway adds nothing. -/
theorem Follows.reach (follows : Follows buf count line r e) (n : ℕ) :
    Follows buf count line r (e.reach n) where
  rest := follows.rest
  result := follows.result
  bytes := follows.bytes
  confined store member := by
    obtain ⟨k, inside, same, within⟩ := follows.confined store member
    exact ⟨k, inside, same, within.imp_left lt_max_of_lt_right⟩
  screen := follows.screen

/-- The call returns, or waits, with the line as it is. -/
theorem follows_stop (stop : Option Stop) (other : stop ≠ some .newline) :
    Follows buf count line
      { stores := [], echo := [], rest := rest, result := stop.map fun _ => (line.length : ℤ) }
      { line := line, rest := rest, longest := n, stop := stop } where
  rest := rfl
  result := rfl
  bytes m held := by
    rw [Edit.buffer, if_neg other, List.append_nil]
    exact held
  confined := nofun
  screen := ⟨[], by rw [if_neg other]; rfl, fun _ _ shows => shows⟩

/-- A newline goes behind the line and on the screen. -/
theorem follows_newline (room : line.length < count.toNat) :
    Follows buf count line
      (((Reading.ret line.length rest).puts [10]).store (buf + .ofNat line.length) 10)
      { line := line, rest := rest, longest := n, stop := some .newline } where
  rest := rfl
  result := rfl
  bytes m held := bytesAt_typed (room.trans count.toNat_lt) held
  confined store member := by
    obtain rfl := List.mem_singleton.mp member
    exact ⟨line.length, room, rfl, .inr ⟨rfl, rfl⟩⟩
  screen := ⟨[], rfl, fun _ _ shows => shows⟩

/-! ### The loop -/

theorem ssize_ofNat (small : n < 2 ^ 31) : ssize (.ofNat n) = n := by
  rw [ssize, UInt32.toInt32_ofNat']
  exact Int32.toInt_ofNat_of_lt small

theorem ofNat_eq_iff (bound : n ≤ count.toNat) : UInt32.ofNat n = count ↔ n = count.toNat := by
  rw [← UInt32.toNat_inj, UInt32.toNat_ofNat_of_lt' (bound.trans_lt count.toNat_lt)]

/-- The loop is the editor, from any line in the buffer. -/
theorem readLoop_follows (small : count.toNat < 2 ^ 31) (bound : line.length ≤ count.toNat) :
    Follows buf count line (readLoop buf count input (.ofNat line.length))
      (editLine keyOf count.toNat input line) := by
  induction input generalizing line with
  | nil =>
    by_cases full : line.length = count.toNat
    · rw [readLoop, if_pos ((ofNat_eq_iff bound).mpr full), editLine, if_pos full,
        ssize_ofNat (bound.trans_lt small)]
      exact follows_stop (some .full) (by decide)
    · rw [readLoop, if_neg (full ∘ (ofNat_eq_iff bound).mp), editLine, if_neg full]
      exact follows_stop none (by decide)
  | cons c rest ih =>
    by_cases full : line.length = count.toNat
    · rw [(ofNat_eq_iff bound).mpr full, readLoop_full, editLine_full full,
        ← (ofNat_eq_iff bound).mpr full, ssize_ofNat (bound.trans_lt small)]
      exact follows_stop (some .full) (by decide)
    · have room : line.length < count.toNat := lt_of_le_of_ne bound full
      have room' : UInt32.ofNat line.length ≠ count := full ∘ (ofNat_eq_iff bound).mp
      rw [editLine, if_neg full]
      rcases ordinary_or_control c with rfl | erase | newline | ordinary
      · rw [readLoop_eot room', keyOf_eot, ssize_ofNat (bound.trans_lt small)]
        exact follows_stop (some .eot) (by decide)
      · rw [readLoop_erase room' erase, keyOf_erase erase]
        -- At the start of the line there is nothing to erase.
        rcases List.eq_nil_or_concat' line with rfl | ⟨shorter, last, rfl⟩
        · exact (ih bound).reach 0
        · have length : (shorter ++ [last]).length = shorter.length + 1 := List.length_append
          have some_char : UInt32.ofNat (shorter ++ [last]).length > 0 := by
            rw [gt_iff_lt, UInt32.lt_iff_toNat_lt,
              UInt32.toNat_ofNat_of_lt' (bound.trans_lt count.toNat_lt), length]
            exact Nat.succ_pos _
          have before : UInt32.ofNat (shorter ++ [last]).length - 1 = .ofNat shorter.length := by
            rw [length, UInt32.ofNat_add]
            exact UInt32.add_sub_cancel _ _
          rw [if_pos some_char, before]
          dsimp only
          rw [List.dropLast_concat]
          exact (ih (by omega)).erased last
      · rw [readLoop_newline room' newline, keyOf_newline newline,
          ssize_ofNat (bound.trans_lt small)]
        exact follows_newline room
      · rw [readLoop_ordinary room' ordinary, keyOf_ordinary ordinary]
        have next : UInt32.ofNat line.length + 1 = .ofNat (line ++ [c]).length := by
          rw [List.length_append, UInt32.ofNat_add]
          rfl
        have longer : (line ++ [c]).length ≤ count.toNat := by
          rw [List.length_append]
          exact room
        rw [next]
        exact (ih longer).typed room ordinary length_le_longest

/-- A valid buffer passes the check, and its length is a positive `ssize_t`. -/
theorem ValidBuffer.passes (valid : ValidBuffer buf count) :
    ¬ (buf < Config.ramStartAddr ∨ buf + count - 1 > Config.ramEndAddr) ∧
      count.toNat < 2 ^ 31 := by
  obtain ⟨low, high⟩ := valid
  have bottom : Config.ramStartAddr.toNat = 2684354560 := rfl
  have top : Config.ramEndAddr.toNat = 2751463424 := rfl
  rw [UInt32.le_iff_toNat_le, bottom] at low
  rw [top] at high
  refine ⟨?_, by omega⟩
  rw [not_or, UInt32.not_lt, gt_iff_lt, UInt32.not_lt, UInt32.le_iff_toNat_le,
    UInt32.le_iff_toNat_le, bottom, top, UInt32.toNat_sub, UInt32.toNat_add, UInt32.toNat_one]
  omega

/-- With a valid buffer `read` from the console is the line editor, from the empty line. -/
theorem readSyscall_follows (valid : ValidBuffer buf count) (input : List UInt8) :
    Follows buf count [] (readSyscall Config.stdinFileno buf count input)
      (editLine keyOf count.toNat input []) := by
  obtain ⟨passes, small⟩ := valid.passes
  rw [readSyscall, if_neg (not_not.mpr rfl), if_neg passes]
  exact readLoop_follows small (Nat.zero_le _)

/-- Two characters, more deletes than there are, a third and a newline, into four bytes. -/
theorem readSyscall_follows_abc :
    Follows 0xa0000000 4 []
      (readSyscall Config.stdinFileno 0xa0000000 4 [97, 98, 127, 8, 8, 99, 10])
      (editLine keyOf 4 [97, 98, 127, 8, 8, 99, 10] []) :=
  readSyscall_follows (by decide) _

end Gravel
