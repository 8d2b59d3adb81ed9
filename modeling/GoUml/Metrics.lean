import GoUml.Json.Record

/-!
# Load metrics

Counters of what a loader has seen and the time it spent. Counters are 64-bit words; time is a
number of nanoseconds and is shown in whole milliseconds.
-/

namespace GoUml

open Json

structure LoadMetrics where
  directoriesScanned : UInt64 := 0
  filesAttempted : UInt64 := 0
  filesSucceeded : UInt64 := 0
  filesFailed : UInt64 := 0
  packagesLoaded : UInt64 := 0
  typesExtracted : UInt64 := 0
  parseNanos : Nat := 0
  deriving DecidableEq, Inhabited

namespace LoadMetrics

/-- The share of the attempted files that were read, zero when none was attempted. -/
def successRate (m : LoadMetrics) : Float :=
  if m.filesAttempted == 0 then 0.0
  else m.filesSucceeded.toFloat / m.filesAttempted.toFloat

/-- The parse time of a file on average, rounded down. The number of files enters as a 32-bit word;
there is no average when that word is zero though files were read. -/
def averageNanos? (m : LoadMetrics) : Option Nat :=
  if m.filesSucceeded == 0 then some 0
  else
    let files := m.filesSucceeded.toUInt32
    if files == 0 then none else some (m.parseNanos / files.toNat)

/-- The counters of both added up. -/
def merge (m n : LoadMetrics) : LoadMetrics where
  directoriesScanned := m.directoriesScanned + n.directoriesScanned
  filesAttempted := m.filesAttempted + n.filesAttempted
  filesSucceeded := m.filesSucceeded + n.filesSucceeded
  filesFailed := m.filesFailed + n.filesFailed
  packagesLoaded := m.packagesLoaded + n.packagesLoaded
  typesExtracted := m.typesExtracted + n.typesExtracted
  parseNanos := m.parseNanos + n.parseNanos

/-- Whole milliseconds as a 64-bit word. -/
def parseMillis (m : LoadMetrics) : UInt64 := (m.parseNanos / 1000000).toUInt64

def fieldNames : List String :=
  ["directories_scanned", "files_attempted", "files_succeeded", "files_failed", "packages_loaded",
   "types_extracted", "total_parse_time"]

/-- The metrics that a record writes, with the parse time in milliseconds. -/
def ofJson? (j : Json) : Option LoadMetrics := do
  match ← slots? fieldNames j with
  | [scanned, attempted, succeeded, failed, packages, types, time] =>
    return {
      directoriesScanned := ← required? word? scanned
      filesAttempted := ← required? word? attempted
      filesSucceeded := ← required? word? succeeded
      filesFailed := ← required? word? failed
      packagesLoaded := ← required? word? packages
      typesExtracted := ← required? word? types
      parseNanos := (← required? word? time).toNat * 1000000 }
  | _ => none

def toJson (m : LoadMetrics) : Json :=
  .object <| fieldNames.zip <|
    [m.directoriesScanned, m.filesAttempted, m.filesSucceeded, m.filesFailed, m.packagesLoaded,
     m.typesExtracted, m.parseMillis].map fun w => Json.nat w.toNat

end LoadMetrics

end GoUml
