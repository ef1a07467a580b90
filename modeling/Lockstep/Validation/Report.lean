import Lockstep.Validation.Basic

/-!
The report on a number of checked files.
-/
namespace Lockstep

structure ValidationReport where
  total : Nat
  passed : Nat
  failed : Nat
  errors : List (String × ValidationError)
  warnings : List (String × Diagnostic)

namespace ValidationReport

def error? (v : Validation) : Option (String × ValidationError) :=
  match v.verdict with
  | .ok _ => none
  | .error e => some (v.path, e)

def ofResults (vs : List Validation) : ValidationReport :=
  let errors := vs.filterMap error?
  { total := vs.length
    passed := vs.length - errors.length
    failed := errors.length
    errors := errors
    warnings := vs.flatMap fun v => v.diagnostics.map fun d => (v.path, d) }

def errorLines (r : ValidationReport) : List String :=
  if r.errors.isEmpty then []
  else
    ["", Text.numeral r.errors.length ++ " ASSEMBLY ERRORS:"]
      ++ (r.errors.flatMap fun e => ["", "  " ++ e.1] ++ e.2.lines.map ("    " ++ ·))
      ++ [""]

def warningLines (r : ValidationReport) : List String :=
  if r.warnings.isEmpty then []
  else
    [Text.numeral r.warnings.length ++ " WARNINGS:"]
      ++ (r.warnings.map fun w =>
        "  " ++ w.1 ++ ":" ++ Text.numeral (w.2.line + 1) ++ ": " ++ w.2.message)
      ++ [""]

def lines (r : ValidationReport) : List String :=
  r.errorLines ++ r.warningLines ++
    ["Validated " ++ Text.numeral r.total ++ " files: " ++ Text.numeral r.passed ++ " passed, "
      ++ Text.numeral r.failed ++ " failed"]

end ValidationReport
end Lockstep
