import Seam.Error

set_option autoImplicit false

namespace Seam

-- Work on something in place. It can end early, and what it has written by then stays.
abbrev Edit (σ α : Type) := ExceptT Failure (StateM σ) α

namespace Edit

variable {σ α : Type}

def ofResult (result : Result α) : Edit σ α := ExceptT.mk (pure result)

def left (edit : Edit σ α) (old : σ) : σ := (edit.run.run old).2

def result (edit : Edit σ α) (old : σ) : Result α := (edit.run.run old).1

def outcome (edit : Edit σ α) (old : σ) : Result (σ × α) := (edit.result old).map fun value => (edit.left old, value)

end Edit

end Seam
