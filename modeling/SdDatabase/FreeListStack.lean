import SdDatabase.State

/-!
# Free list stack

`free_list_stack.c`: indices are taken from and given back to the top of a
stack, so the index freed last is handed out first.
-/

namespace SdDatabase

set_option autoImplicit false

/-- `free_list_init`: every index is free, the largest on top. -/
def freeListInit (totalSectors : Nat) : Option FreeList :=
  if totalSectors = 0 then none
  else some
    { freeStack := (List.range totalSectors).reverse
      capacity := totalSectors
      usedCount := 0 }

/-- `free_list_empty_init`: every index counts as used. -/
def freeListEmptyInit (totalSectors : Nat) : Option FreeList :=
  if totalSectors = 0 then none
  else some { freeStack := [], capacity := totalSectors, usedCount := totalSectors }

def freeListAllocate (self : FreeList) : Nat × FreeList :=
  match self.freeStack with
  | [] => (uint16Max, self)
  | sector :: rest => (sector, { self with freeStack := rest, usedCount := self.usedCount + 1 })

def freeListFree (self : FreeList) (sector : Nat) : FreeList :=
  if self.capacity ≤ self.freeStack.length then self
  else { self with freeStack := sector :: self.freeStack, usedCount := self.usedCount - 1 }

/-- The loop of `free_list_free_range`, which stops at the capacity. -/
def freeListFreeFrom (self : FreeList) : Nat → Nat → FreeList
  | 0, _ => self
  | count + 1, index =>
      if self.capacity ≤ index then self
      else freeListFreeFrom (freeListFree self index) count (index + 1)

/-- `free_list_reset`: every index is free again. -/
def freeListReset (self : FreeList) : FreeList :=
  { self with freeStack := (List.range self.capacity).reverse, usedCount := 0 }

/-- `free_list_free_range` on the half-open range `[startIndex, endIndex)`. -/
def freeListFreeRange (self : FreeList) (startIndex endIndex : Nat) : FreeList :=
  freeListFreeFrom self (endIndex - startIndex) startIndex

end SdDatabase
