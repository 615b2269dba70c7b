import DemoPages.Keyed

/-!
# The registry

For each page, the names of the components that the last pass over it made. Each page also has a
lock, which is held while its entry is read, acted upon and written again.
-/

namespace DemoPages

/-- The entries by page, and the pages whose lock is held. -/
structure Registry where
  names : Keyed String (List String) := {}
  held : List String := []
  deriving DecidableEq, Repr

namespace Registry

/-- The names recorded for a page, none if it has no entry. -/
def get (r : Registry) (file : String) : List String := (r.names.get? file).getD []

/-- Records names for a page. -/
def set (r : Registry) (file : String) (names : List String) : Registry :=
  { r with names := r.names.put file names }

/-- The number of entries. -/
def size (r : Registry) : Nat := r.names.size

/-- Drops the entries; locks stay as they are. -/
def clear (r : Registry) : Registry := { r with names := {} }

/-- Is the lock of the page held? -/
def isHeld (r : Registry) (file : String) : Bool := r.held.contains file

/-- Takes the lock of a page. -/
def hold (r : Registry) (file : String) : Registry := { r with held := file :: r.held }

/-- Gives the lock of a page back. -/
def free (r : Registry) (file : String) : Registry :=
  { r with held := r.held.filter fun f => f ≠ file }

/-- Takes the lock of a page unless it is held. -/
def tryHold (r : Registry) (file : String) : Bool × Registry :=
  if r.isHeld file then (false, r) else (true, r.hold file)

/-- The fault of giving back a lock that is not held. -/
structure NotHeld where
  file : String
  deriving DecidableEq, Repr

/-- The words for the fault. -/
def NotHeld.message (_ : NotHeld) : String := "release unlocked lock"

/-- Gives the lock of a page back if it is held. -/
def tryFree (r : Registry) (file : String) : Except NotHeld Registry :=
  if r.isHeld file then .ok (r.free file) else .error ⟨file⟩

@[simp] theorem get_set_self (r : Registry) (file : String) (names : List String) :
    (r.set file names).get file = names := by
  simp [get, set]

theorem get_set_of_ne (r : Registry) {file file' : String} (names : List String)
    (h : file' ≠ file) : (r.set file names).get file' = r.get file' := by
  simp [get, set, Keyed.get?_put_of_ne _ _ h]

@[simp] theorem get_hold (r : Registry) (file file' : String) :
    (r.hold file).get file' = r.get file' := rfl

@[simp] theorem get_free (r : Registry) (file file' : String) :
    (r.free file).get file' = r.get file' := rfl

@[simp] theorem free_hold (r : Registry) (file : String) :
    (r.hold file).free file = r.free file := by
  simp [hold, free]

@[simp] theorem set_hold (r : Registry) (file : String) (names : List String) :
    (r.hold file).set file names = (r.set file names).hold file := rfl

end Registry

end DemoPages
