import SolidScript.Shape.Kind

/-!
# Reports

What building a node can say beside the node: why it failed, and which parameters it did not know. A `Report` holds the
warnings that were given, in order, and a value or the error that ended the work. Running one step after another keeps
the warnings of both; an error ends the sequence.
-/

namespace SolidScript

/-- Why the parameters of a node are refused. -/
inductive NodeError where
  /-- A required parameter is not given. -/
  | missing (kind : Kind) (key : String)
  /-- A parameter is given with a value that cannot be coerced. -/
  | mismatch (kind : Kind) (key : String) (expected : String)
deriving DecidableEq, Repr

namespace NodeError

/-- The kind of the node that is refused. -/
def kind : NodeError → Kind
  | .missing kind _ => kind
  | .mismatch kind _ _ => kind

/-- The parameter that is to blame. -/
def key : NodeError → String
  | .missing _ key => key
  | .mismatch _ key _ => key

/-- The text of the error. -/
def message : NodeError → String
  | .missing kind key => "missing parameter '" ++ key ++ "' for " ++ kind.tag
  | .mismatch kind key expected =>
    "invalid type for parameter '" ++ key ++ "' of " ++ kind.tag ++ ": expected " ++ expected

end NodeError

/-- Why a document is refused. -/
inductive DocumentError where
  /-- The text is no JSON text. -/
  | json
  /-- The document does not have the form of a node document. -/
  | malformed
  /-- Its tag names no kind. -/
  | unknownKind (tag : String)
  /-- Its parameters are refused. -/
  | node (error : NodeError)
deriving DecidableEq, Repr

/-- The text of the error about a tag. -/
def unknownKindMessage (tag : String) : String := "unknown node kind '" ++ tag ++ "'"

/-- The text of the error. -/
def DocumentError.message : DocumentError → String
  | .json => "invalid JSON"
  | .malformed => "malformed node document: expected an object with a string 'kind'"
  | .unknownKind tag => unknownKindMessage tag
  | .node error => error.message

/-- A parameter that the schema of a kind does not declare. -/
structure Warning where
  key : String
  kind : Kind
deriving DecidableEq, Repr

/-- The text of a warning. -/
def Warning.message (w : Warning) : String := "ignoring unknown parameter '" ++ w.key ++ "' for " ++ w.kind.tag

/-- The warnings of some work, and its result. -/
structure Report (ε α : Type) where
  warnings : List Warning
  result : Except ε α

namespace Report

variable {ε δ α β : Type}

/-- Work that fails at once. -/
def fail (error : ε) : Report ε α := ⟨[], .error error⟩

/-- Work that only warns. -/
def warn (warnings : List Warning) : Report ε Unit := ⟨warnings, .ok ()⟩

/-- Work that gives a value, or fails for want of one. -/
def ofOption (error : ε) : Option α → Report ε α
  | some a => ⟨[], .ok a⟩
  | none => fail error

/-- Work that gives a result without any warning. -/
def ofExcept (result : Except ε α) : Report ε α := ⟨[], result⟩

/-- One step after another. -/
def andThen (first : Report ε α) (next : α → Report ε β) : Report ε β :=
  match first.result with
  | .error error => ⟨first.warnings, .error error⟩
  | .ok a => ⟨first.warnings ++ (next a).warnings, (next a).result⟩

instance : Monad (Report ε) where
  pure a := ⟨[], .ok a⟩
  bind := andThen

/-- The same work with its error changed. -/
def mapError (f : ε → δ) (report : Report ε α) : Report δ α := ⟨report.warnings, report.result.mapError f⟩

@[simp] theorem result_pure (a : α) : (pure a : Report ε α).result = .ok a := rfl

@[simp] theorem result_fail (error : ε) : (fail error : Report ε α).result = .error error := rfl

@[simp] theorem result_ofExcept (result : Except ε α) : (ofExcept result).result = result := rfl

@[simp] theorem result_mapError (f : ε → δ) (report : Report ε α) :
    (report.mapError f).result = report.result.mapError f := rfl

theorem result_bind_ok {first : Report ε α} {a : α} (h : first.result = .ok a) (next : α → Report ε β) :
    (first >>= next).result = (next a).result := by
  show (first.andThen next).result = _
  rw [andThen, h]

theorem result_bind_error {first : Report ε α} {error : ε} (h : first.result = .error error) (next : α → Report ε β) :
    (first >>= next).result = .error error := by
  show (first.andThen next).result = _
  rw [andThen, h]

/-- The result of a sequence is the sequence of the results. -/
theorem result_bind (first : Report ε α) (next : α → Report ε β) :
    (first >>= next).result = first.result.bind fun a => (next a).result := by
  cases h : first.result with
  | error e => rw [result_bind_error h]; rfl
  | ok a => rw [result_bind_ok h]; rfl

/-- A sequence gives a value only if both of its steps do. -/
theorem result_bind_eq_ok {first : Report ε α} {next : α → Report ε β} {b : β} (h : (first >>= next).result = .ok b) :
    ∃ a, first.result = .ok a ∧ (next a).result = .ok b := by
  cases hfirst : first.result with
  | error error => rw [result_bind_error hfirst] at h; cases h
  | ok a => rw [result_bind_ok hfirst] at h; exact ⟨a, rfl, h⟩

end Report
end SolidScript
