import Bravo.Basic.Fault
import Bravo.Basic.Json
import Bravo.Trace.Sha256

/-! # The paired evaluators

`evaluate_pair` of `kaist_pair_evaluator.py` and of `cross_dataset_pair_evaluator.py` over two names, the
output and a staging directory beside it. What an evaluation computes is kept as the contents of the files
that it writes, in the order of the source; a validation, a computation or a read is an operation that can
raise. The clean-up operations do not raise.
-/

namespace Bravo.Pair

/-! ## Directories -/

inductive File
  | content (bytes : List UInt8)
  | sums (rows : List (String × String))

def sumsText (rows : List (String × String)) : List Char :=
  rows.flatMap fun row => (row.1 ++ "  " ++ row.2 ++ "\n").toList

def File.bytes : File → List UInt8
  | .content bytes => bytes
  | .sums rows => Json.utf8 (sumsText rows)

/-- `sha256_file` -/
def File.digest (file : File) : String := Trace.sha256Hex file.bytes

structure Dir where
  directories : List String := []
  files : List (String × File) := []

def Dir.names (d : Dir) : List String := d.files.map (·.1)

def Dir.file (d : Dir) (path : String) : Option File := (d.files.find? fun entry => entry.1 = path).map (·.2)

def Dir.mkdir (name : String) (d : Dir) : Dir :=
  if d.directories.contains name then d else { d with directories := d.directories ++ [name] }

def Dir.unlink (path : String) (d : Dir) : Dir :=
  { d with files := d.files.filter fun entry => entry.1 ≠ path }

def Dir.put (path : String) (file : File) (d : Dir) : Dir :=
  { d with files := (d.unlink path).files ++ [(path, file)] }

/-- The two names, and the flags of the KAIST evaluator that its handler reads. -/
structure World where
  output : Option Dir := none
  staging : Option Dir := none
  installAttempted : Bool := false
  installed : Bool := false

abbrev Evaluating (α : Type) := Faulty String World α

def raise {α : Type} (message : String) : Evaluating α := throw message

def World.mapStaging (f : Dir → Dir) (w : World) : World := { w with staging := w.staging.map f }

def World.names (w : World) : List String := (w.staging.map Dir.names).getD []

def World.file (w : World) (path : String) : Option File := w.staging.bind (·.file path)

/-! ## Work in the staging directory -/

/-- A file that is opened with `"x"`, written and synced. -/
def writeNew (path : String) (file : File) : Evaluating Unit := do
  operateChecked fun w =>
    if w.names.contains path then .error "refusing to overwrite output file"
    else .ok (w.mapStaging (Dir.put path (.content [])))
  operate (World.mapStaging (Dir.put path file))
  operate id

inductive Action
  | check
  | mkdir (name : String)
  | write (path : String)

def Action.perform (contents : String → List UInt8) : Action → Evaluating Unit
  | .check => operate id
  | .mkdir name => operate (World.mapStaging (Dir.mkdir name))
  | .write path => writeNew path (.content (contents path))

def performAll (contents : String → List UInt8) : List Action → Evaluating Unit
  | [] => return ⟨⟩
  | action :: actions => do
    action.perform contents
    performAll contents actions

/-- `staging.mkdir` -/
def makeStaging : Evaluating Unit := do
  operate id
  let taken ← query (·.staging.isSome)
  onlyIf taken (raise "File exists")
  update fun w => { w with staging := some {} }

def stagedPaths : Evaluating (List String) := query fun w => w.names.mergeSort fun a b => a ≤ b

def readFile (path : String) : Evaluating File := do
  match ← query (·.file path) with
  | some file => return file
  | none => raise "No such file or directory"

/-- `sha256_file` of each path, as far as it can be read. -/
def readFiles : List String → Evaluating Unit
  | [] => return ⟨⟩
  | path :: paths => do
    let _ ← readFile path
    readFiles paths

def checksumPath : String := "SHA256SUMS"

def resultPath : String := "pair_result.json"

def writeSums (rows : List (String × String)) : List String → Evaluating Unit
  | [] => return ⟨⟩
  | path :: paths => do
    let file ← readFile path
    let rows := rows ++ [(file.digest, path)]
    operate (World.mapStaging (Dir.put checksumPath (.sums rows)))
    writeSums rows paths

/-- `checksum_path.open("x")` -/
def openSums : Evaluating Unit := operateChecked fun w =>
  if w.names.contains checksumPath then .error "File exists"
  else .ok (w.mapStaging (Dir.put checksumPath (.sums [])))

/-- The loop that checks the rows of the checksum file. -/
def checkSums : List (String × String) → Evaluating Unit
  | [] => return ⟨⟩
  | (digest, path) :: rows => do
    let file ← readFile path
    onlyIf (file.digest ≠ digest) (raise "staged checksum mismatch")
    checkSums rows

def verifySums : Evaluating Unit := do
  match ← readFile checksumPath with
  | .sums rows => checkSums rows
  | .content _ => raise "not enough values to unpack"

/-- What an evaluation computes: the contents of its files, and what `pair_result.json` is before the
artifacts are entered. -/
structure Evaluation where
  contents : String → List UInt8
  draft : List UInt8

/-! ## The KAIST evaluator -/

namespace Kaist

/-- The work of `evaluate_pair` up to `SHA256SUMS`. -/
def actions : List Action :=
  [.mkdir "associations", .mkdir "common", .mkdir "metrics",
    -- the runs, the protocol and the runtime; the rows and their associations
    .check, .check,
    .write "associations/u0_to_ground_truth.csv", .write "associations/s1_to_ground_truth.csv",
    .write "associations/common_population.csv", .write "common/ground_truth_common.tum",
    .write "common/u0_common.tum", .write "common/s1_common.tum",
    -- the common trajectories and the reference pairs
    .check, .write "associations/rpe_pairs_1m.csv",
    -- `evaluate_method`
    .check, .write "metrics/u0_ate_translation_errors.csv", .write "metrics/u0_rpe_1m_errors.csv",
    .write "metrics/s1_ate_translation_errors.csv", .write "metrics/s1_rpe_1m_errors.csv",
    -- the artifact indexes
    .check, .write "association_manifest.json", .write "crop_manifest.json", .check,
    .write "metrics/paired_metrics.json", .check, .write resultPath]

/-- `os.replace(staging, final_output)` -/
def replaceOutput (w : World) : Except String World :=
  match w.staging, w.output with
  | some d, none => .ok { w with staging := none, output := some d }
  | some d, some ⟨[], []⟩ => .ok { w with staging := none, output := some d }
  | some _, some _ => .error "Directory not empty"
  | none, _ => .error "No such file or directory"

/-- The `try` block of `evaluate_pair` up to the flags: the result that was staged. -/
def stage (e : Evaluation) : Evaluating File := do
  performAll e.contents actions
  let candidates ← stagedPaths
  openSums
  writeSums [] candidates
  operate id
  -- every JSON file is parsed
  operate id
  verifySums
  operate id
  let stagedResult ← readFile resultPath
  operate id
  let appeared ← query (·.output.isSome)
  onlyIf appeared (raise "pair output appeared during evaluation")
  operate id
  return stagedResult

/-- The rename, between the flags that tell the handler how far it came. -/
def replaceStaged : Evaluating Unit := do
  operate id
  update fun w => { w with installAttempted := true }
  operateChecked replaceOutput
  update fun w => { w with installed := true }
  operate id

/-- The `try` block of `evaluate_pair`. -/
def install (e : Evaluation) : Evaluating File := do
  let stagedResult ← stage e
  let replaced ← attempt replaceStaged
  -- `os.close(directory_fd)`
  operate id
  match replaced with
  | .ok _ => return stagedResult
  | .error original => throw original

/-- The handler of `evaluate_pair`. -/
def rollBack (w : World) : World :=
  let ownsFinal := w.installed || (w.installAttempted && w.staging.isNone && w.output.isSome)
  let w := if ownsFinal && w.output.isSome then { w with staging := w.output, output := none } else w
  { w with staging := none }

def evaluatePair (e : Evaluation) : Evaluating File := do
  operate id
  let found ← query (·.output.isSome)
  onlyIf found (raise "refusing to overwrite pair output")
  operate id
  let taken ← query (·.staging.isSome)
  onlyIf taken (raise "staging path unexpectedly exists")
  makeStaging
  match ← attempt (install e) with
  | .ok result => return result
  | .error original => do
    update rollBack
    throw original

end Kaist

/-! ## The cross-dataset evaluator -/

namespace CrossDataset

inductive Population
  | insufficientPoses
  | insufficientPairs
  | complete
deriving DecidableEq, Repr

/-- The work of `evaluate_pair` up to `_publish_pair_result`. -/
def actions : Population → List Action
  | .insufficientPoses => common
  | .insufficientPairs => common ++ trajectories ++ pairs
  | .complete => common ++ trajectories ++ [.check] ++ pairs ++
      [.mkdir "metrics", .write "metrics/u0_errors.csv", .mkdir "metrics", .write "metrics/s1_errors.csv", .check]
where
  -- the runs and the matrix; the rows and their associations; the runtime and the evaluator itself
  common := [.check, .check, .mkdir "associations", .write "associations/common_population.csv", .check]
  trajectories := [.mkdir "common", .write "common/ground_truth_common.tum", .write "common/u0_common.tum",
    .write "common/s1_common.tum", .check]
  pairs := [.mkdir "associations", .write "associations/rpe_pairs_1m.csv"]

def publishDirectoryNoReplace (w : World) : Except String World :=
  match w.staging, w.output with
  | some d, none => .ok { w with staging := none, output := some d }
  | _, some _ => .error "refusing to overwrite pair output"
  | none, none => .error "No such file or directory"

/-- `load_json(final_output / "pair_result.json")` -/
def loadPublished : Evaluating File := do
  match ← query fun w => w.output.bind (·.file resultPath) with
  | some file => return file
  | none => raise "cannot read published pair result"

/-- The part of `_publish_pair_result` that enters the artifacts into the result. -/
def rewriteResult (e : Evaluation) : Evaluating Unit := do
  writeNew resultPath (.content e.draft)
  let files ← stagedPaths
  readFiles (files.filter fun path => path ≠ resultPath)
  operate (World.mapStaging (Dir.unlink resultPath))
  writeNew resultPath (.content (e.contents resultPath))

/-- From the checksum file to the rename. -/
def sealPublication : Evaluating Unit := do
  openSums
  let candidates ← stagedPaths
  writeSums [] (candidates.filter fun path => path ≠ checksumPath)
  operate id
  verifySums
  -- the identities of the inputs are read again
  operate id
  operate id
  operate id

/-- `_publish_pair_result` up to the rename. -/
def preparePublication (e : Evaluation) : Evaluating Unit := do
  rewriteResult e
  sealPublication

def publishPairResult (e : Evaluation) : Evaluating File := do
  preparePublication e
  operateChecked publishDirectoryNoReplace
  operate id
  loadPublished

def evaluatePair (e : Evaluation) (population : Population) : Evaluating File := do
  let found ← query (·.output.isSome)
  onlyIf found (raise "refusing to overwrite pair output")
  operate id
  makeStaging
  match ← attempt (do
      performAll e.contents (actions population)
      publishPairResult e) with
  | .ok published => return published
  | .error original => do
    -- `committed` is false: `if staging.exists(): shutil.rmtree(staging)`
    update fun w => { w with staging := none }
    throw original

end CrossDataset

end Bravo.Pair
