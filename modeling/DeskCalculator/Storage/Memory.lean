import DeskCalculator.Association
import DeskCalculator.Storage.Basic

/-!
Storage in memory.

* `MemoryStorage`: texts under keys, which can be told to refuse writes.
* `lookup`, `putKey`, `dropKey`: the text under a key, another one, none.
-/

namespace DeskCalculator

/-- Texts under keys, and whether writes are refused. -/
structure MemoryStorage where
  entries : List (String × String)
  refusesWrites : Bool
deriving DecidableEq

namespace MemoryStorage

/-- Storage with nothing in it. -/
def empty : MemoryStorage := ⟨[], false⟩

/-- The text under a key. -/
def lookup (m : MemoryStorage) (key : String) : Option String := m.entries.lookup key

/-- Without the text under a key. -/
def dropKey (m : MemoryStorage) (key : String) : MemoryStorage :=
  { m with entries := Association.erase key m.entries }

/-- With a text under a key. -/
def putKey (m : MemoryStorage) (key text : String) : MemoryStorage :=
  { m with entries := Association.insert key text m.entries }

@[simp]
theorem lookup_dropKey (m : MemoryStorage) (key key' : String) :
    (m.dropKey key).lookup key' = if key' == key then none else m.lookup key' :=
  Association.lookup_erase key key' m.entries

@[simp]
theorem lookup_putKey (m : MemoryStorage) (key key' text : String) :
    (m.putKey key text).lookup key' = if key' == key then some text else m.lookup key' :=
  Association.lookup_insert key key' text m.entries

/-- The failure of a refused write. -/
def refusal : StorageFailure := .unavailable "memory store is read-only"

/-- A write, unless writes are refused. -/
def write (m : MemoryStorage) (change : MemoryStorage → MemoryStorage) : Written MemoryStorage :=
  if m.refusesWrites then (.error refusal, m) else (.ok (), change m)

instance : Storage MemoryStorage where
  find? m key := .ok (m.lookup key)
  insert m key text := m.write (·.putKey key text)
  erase m key := m.write (·.dropKey key)

end MemoryStorage

end DeskCalculator
