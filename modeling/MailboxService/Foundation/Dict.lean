import Mathlib.Logic.Function.Basic

/-!
# Dictionaries

A dictionary is the partial function it looks up: `get` with a default, `set`
and `pop` are then statements about one key, and two dictionaries with equal
lookups are equal.
-/

namespace MailboxService.Foundation

variable {κ ν : Type*}

structure Dict (κ ν : Type*) where
  lookup : κ → Option ν

namespace Dict

instance : EmptyCollection (Dict κ ν) := ⟨⟨fun _ => none⟩⟩

/-- `d.get(k, default)`. -/
def get (d : Dict κ ν) (k : κ) (default : ν) : ν := (d.lookup k).getD default

@[simp] theorem get_empty (k : κ) (default : ν) :
    (∅ : Dict κ ν).get k default = default := rfl

variable [DecidableEq κ]

/-- `d[k] = v`. -/
def set (d : Dict κ ν) (k : κ) (v : ν) : Dict κ ν :=
  ⟨Function.update d.lookup k (some v)⟩

/-- `d.pop(k, None)`. -/
def pop (d : Dict κ ν) (k : κ) : Dict κ ν :=
  ⟨Function.update d.lookup k none⟩

theorem lookup_set (d : Dict κ ν) (k k' : κ) (v : ν) :
    (d.set k v).lookup k' = if k' = k then some v else d.lookup k' := by
  unfold set
  simp only [Function.update_apply]

theorem get_set (d : Dict κ ν) (k k' : κ) (v default : ν) :
    (d.set k v).get k' default = if k' = k then v else d.get k' default := by
  unfold get set
  simp only [Function.update_apply]
  split <;> rfl

theorem get_pop (d : Dict κ ν) (k k' : κ) (default : ν) :
    (d.pop k).get k' default = if k' = k then default else d.get k' default := by
  unfold get pop
  simp only [Function.update_apply]
  split <;> rfl

end Dict

end MailboxService.Foundation
