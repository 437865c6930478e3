import Gravel.Library.ByteMemory

/-!
# Exception vectors

`wiring_handler`, `restore_handler`, `init_interrupt` and `init_swi` of `kernel_helpers.c`, and
what `back_to_kernel` of `kernel_asm.S` undoes. The two arrays in which the kernel notes what it
has replaced lie apart from the memory that is patched.

## Main definitions

* `Vectors` — the memory, the two arrays and the console
* `wiringHandler`, `initInterrupt`, `initSwi`
* `restoreHandler`, `backToKernel`
-/

namespace Gravel

open Library

namespace Config

abbrev exSwi : UInt32 := 2
abbrev exIrq : UInt32 := 6
abbrev numExceptions : UInt32 := 8

/-- `ldr pc, [pc, #0]`; the offset is in the low twelve bits. -/
abbrev ldrPc : UInt32 := 0xe59ff000

/-- `ldr pc, [pc, #-4]`, which jumps to the address in the next word. -/
abbrev ldrNext : UInt32 := 0xe51ff004

end Config

open Config

/-- The memory, what the kernel has noted for each vector, and what it has printed. -/
structure Vectors where
  mem : Memory
  ubootHandlerAddr : UInt32 → UInt32
  instructionBackup : UInt32 → UInt32 × UInt32
  console : List String

/-- Before the kernel has hooked anything; the arrays are in the bss. -/
def Vectors.boot (mem : Memory) : Vectors where
  mem := mem
  ubootHandlerAddr := fun _ => 0
  instructionBackup := fun _ => (0, 0)
  console := []

/-- The address of a vector. -/
def vectorAddr (vecNum : UInt32) : UInt32 := vecNum * 4

/-- What the vector's instruction adds to `pc`, if it is an `ldr pc, [pc, #imm12]`. -/
def vectorOffset (mem : Memory) (vecNum : UInt32) : UInt32 :=
  loadWord mem (vectorAddr vecNum) ^^^ ldrPc

/-- The address that the vector's instruction loads. `pc` is eight bytes ahead when read. -/
def handlerOf (mem : Memory) (vecNum : UInt32) : UInt32 :=
  loadWord mem (vectorOffset mem vecNum + vectorAddr vecNum + 8)

def wiringHandler (s : Vectors) (vecNum handlerAddr : UInt32) : ℤ × Vectors :=
  if vectorOffset s.mem vecNum > 0xfff then (-1, s)
  else
    let uboot := handlerOf s.mem vecNum
    let backup := (loadWord s.mem uboot, loadWord s.mem (uboot + 4))
    (1, { s with
      mem := storeTwo s.mem uboot ldrNext handlerAddr
      ubootHandlerAddr := Function.update s.ubootHandlerAddr vecNum uboot
      instructionBackup := Function.update s.instructionBackup vecNum backup })

def restoreHandler (s : Vectors) (vecNum : UInt32) : Vectors :=
  if vecNum < numExceptions then
    let backup := s.instructionBackup vecNum
    { s with mem := storeTwo s.mem (s.ubootHandlerAddr vecNum) backup.1 backup.2 }
  else s

/-- Wire a handler, or say that it could not be done. -/
def initHandler (s : Vectors) (vecNum handlerAddr : UInt32) : Vectors :=
  let (code, s') := wiringHandler s vecNum handlerAddr
  if code < 0 then
    { s' with
      console := s'.console ++ ["The instruction in the vector table is unrecognized\n"] }
  else s'

def initInterrupt (s : Vectors) (irqHandler : UInt32) : Vectors := initHandler s exIrq irqHandler

def initSwi (s : Vectors) (swiHandler : UInt32) : Vectors := initHandler s exSwi swiHandler

/-- The part of `back_to_kernel` before the return to `main`. -/
def backToKernel (s : Vectors) : Vectors := restoreHandler (restoreHandler s exSwi) exIrq

end Gravel
