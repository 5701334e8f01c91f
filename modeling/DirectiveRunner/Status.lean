/-!
# Statuses

The status of a directive, a file or a whole run. Statuses are ordered by severity, and the status of
several is the worst of them (`worst`).
-/

namespace DirectiveRunner

/-- How something ended, from good to bad. -/
inductive Status where
  /-- Everything went well. -/
  | processing
  | externalCallFailed
  | caughtException
deriving DecidableEq, Repr, Inhabited

namespace Status

/-- The exit code of a run with a status. -/
def exitCode : Status → Nat
  | processing => 0
  | externalCallFailed => 1
  | caughtException => 2

/-- The more severe of two statuses. -/
protected def max (s t : Status) : Status := if s.exitCode < t.exitCode then t else s

/-- The most severe status; that of none is good. -/
def worst (statuses : List Status) : Status := statuses.foldl Status.max processing

/-- The status of a file that was halted with a code. -/
def ofHaltCode (code : Int64) : Status := if code = 0 then processing else externalCallFailed

def name : Status → String
  | processing => "Processing"
  | externalCallFailed => "ExternalCallFailed"
  | caughtException => "CaughtException"

theorem max_assoc (s t u : Status) : (s.max t).max u = s.max (t.max u) := by
  cases s <;> cases t <;> cases u <;> rfl

@[simp] theorem max_self (s : Status) : s.max s = s := by cases s <;> rfl

@[simp] theorem processing_max (s : Status) : processing.max s = s := by cases s <;> rfl

theorem max_eq_processing {s t : Status} : s.max t = processing ↔ s = processing ∧ t = processing := by
  cases s <;> cases t <;> simp [Status.max, exitCode]

/-- Only a halt with code 0 is good. -/
theorem ofHaltCode_eq_processing {code : Int64} : ofHaltCode code = processing ↔ code = 0 := by
  unfold ofHaltCode
  split <;> simp [*]

/-- A halt never counts as a caught error. -/
theorem ofHaltCode_ne_caughtException (code : Int64) : ofHaltCode code ≠ caughtException := by
  unfold ofHaltCode
  split <;> simp

end Status

end DirectiveRunner
