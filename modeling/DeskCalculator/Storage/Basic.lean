import DeskCalculator.Disk.Basic

/-!
Storage of texts under keys.

* `Storage`: what a kind of storage provides. Reading changes nothing; a write that
  fails may still leave something behind, so it gives the storage afterwards too.
* `StorageFailure`: why an access fails, with its wording.
-/

namespace DeskCalculator

/-- Why storage cannot be read or written. -/
inductive StorageFailure where
  | disk (path : String) (trouble : Trouble)
  | unavailable (why : String)
deriving DecidableEq

/-- The wording of a failure. -/
def StorageFailure.message : StorageFailure → String
  | disk path trouble => "storage I/O failed for " ++ path ++ ": " ++ trouble.text
  | unavailable why => "storage is unavailable: " ++ why

/-- The outcome of a write to storage in the state `σ`, and the storage afterwards. -/
abbrev Written (σ : Type) := Except StorageFailure Unit × σ

/-- Storage in the state `σ` of texts under keys. -/
class Storage (σ : Type) where
  /-- The text under a key, if there is one. -/
  find? : σ → String → Except StorageFailure (Option String)
  /-- Puts a text under a key, in the place of any other. -/
  insert : σ → String → String → Written σ
  /-- Removes the text under a key, if there is one. -/
  erase : σ → String → Written σ

end DeskCalculator
