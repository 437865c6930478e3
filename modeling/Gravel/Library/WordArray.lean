import Gravel.Library.ByteMemory

/-!
# Arrays of words

Arrays of words in a byte memory, and a memory that notes the words loaded from it.

## Main definitions

* `slot` — the address of an entry
* `Traced` — a memory, and the addresses that have been loaded

## Main results

* `sub_slot_lt_iff` — the bytes of an entry, by their distance from the array
* `loadWord_storeWord_slot` — entries do not overlap
-/

namespace Gravel.Library

/-- The address of entry `i` of an array of words. -/
def slot (a : UInt32) (i : ℕ) : UInt32 := a + .ofNat (4 * i)

/-- A memory, and the addresses of the words loaded from it, the last one first. -/
structure Traced where
  mem : Memory
  loads : List UInt32

def Traced.load (s : Traced) (a : UInt32) : UInt32 × Traced :=
  (loadWord s.mem a, { s with loads := a :: s.loads })

def Traced.store (s : Traced) (a v : UInt32) : Traced := { s with mem := storeWord s.mem a v }

variable {m m' : Memory} {a b v x : UInt32} {i j : ℕ}

/-- The bytes of an entry, by their distance from the array. -/
theorem sub_slot_lt_iff (small : i < 2 ^ 30) :
    x - slot a i < 4 ↔ 4 * i ≤ (x - a).toNat ∧ (x - a).toNat < 4 * i + 4 := by
  have offset : (UInt32.ofNat (4 * i)).toNat = 4 * i :=
    toNat_ofNat_of_lt (by omega)
  have bound := (x - a).toNat_lt
  rw [slot, sub_add_eq, UInt32.lt_iff_toNat_lt, UInt32.toNat_sub, offset]
  show _ < 4 ↔ _
  omega

/-- Entries of one array do not overlap. -/
theorem loadWord_storeWord_slot (hi : i < 2 ^ 30) (hj : j < 2 ^ 30) (other : i ≠ j) :
    loadWord (storeWord m (slot a j) v) (slot a i) = loadWord m (slot a i) :=
  loadWord_storeWord_of_apart fun x inside => by
    rw [sub_slot_lt_iff hj]
    have bytes := (sub_slot_lt_iff hi).mp inside
    omega

/-- A load from an array whose bytes agree. -/
theorem loadWord_slot_congr (small : i < 2 ^ 30)
    (agree : ∀ x, (x - a).toNat < 4 * i + 4 → m x = m' x) :
    loadWord m (slot a i) = loadWord m' (slot a i) :=
  loadWord_congr fun x inside => agree x ((sub_slot_lt_iff small).mp inside).2

end Gravel.Library
