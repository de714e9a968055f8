import PrototypeGate.Check.Conflict
import PrototypeGate.Report.Json

/-!
# Findings

A finding is what a report says of a conflict. Diagnostics name the two places, one
line each; the machine-readable report is a list of findings.
-/

namespace PrototypeGate

/-- The name of the tool in its messages and reports. -/
def toolName : String := "protocheck"

/-- The version of the tool. -/
def toolVersion : String := "0.1.0"

/-- A conflict in the words of the report. -/
structure Finding where
  /-- Code of the condition. -/
  code : Int
  /-- What is wrong with the declaration. -/
  message : Text
  /-- The offending declaration. -/
  record : Record
  /-- The earlier declaration. -/
  prior : Record
  /-- What the earlier declaration is called. -/
  priorLabel : Text
  deriving DecidableEq, Repr

/-- The report's words for a conflict. -/
def Conflict.finding (c : Conflict) : Finding :=
  ⟨c.condition.code, c.condition.message.toList, c.record, c.prior, c.priorLabel.toList⟩

/-- One line of diagnostics: a place, a label and a declaration, unless the line number has
too many digits. -/
def Record.diagnostic? (r : Record) (label : Text) : Option Text :=
  (numeral? r.line).map fun line =>
    r.file ++ ':' :: line ++ ':' :: ' ' :: label ++ ':' :: ' ' :: r.signature

/-- The record as a report field. -/
def Record.toJson (r : Record) : Json :=
  .object [("name", .string r.name), ("signature", .string r.signature),
    ("file", .string r.file), ("line", .integer r.line)]

namespace Finding

/-- The two lines of diagnostics, unless one of the line numbers has too many digits. -/
def diagnostics? (f : Finding) : Option (List Text) := do
  return [← f.record.diagnostic? f.message, ← f.prior.diagnostic? f.priorLabel]

/-- The diagnostics as printed. -/
def diagnosticText? (f : Finding) : Option Text :=
  f.diagnostics?.map (List.flatMap (· ++ ['\n']))

/-- The finding as an entry of the report, unless no condition has its code. -/
def toJson? (f : Finding) : Option Json :=
  (Condition.ofCode? f.code).map fun condition =>
    .object [("condition", .string condition.name.toList), ("code", .integer f.code),
      ("message", .string f.message), ("record", f.record.toJson),
      ("prior", f.prior.toJson), ("tool", .string toolName.toList),
      ("version", .string toolVersion.toList)]

/-- Why a report cannot be made. -/
inductive ReportProblem where
  /-- No condition has the code of a finding. -/
  | unknownCode (code : Int)
  /-- An integer has too many digits. -/
  | longNumeral
  deriving DecidableEq, Repr

/-- The report on a list of findings. -/
def report (findings : List Finding) : Except ReportProblem Text := do
  let entries ← findings.mapM fun f => (f.toJson?).elim (.error (.unknownCode f.code)) .ok
  match Json.render? (.array entries) with
  | some text => return text ++ ['\n']
  | none => throw .longNumeral

end Finding

end PrototypeGate
