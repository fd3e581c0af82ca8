import Mathlib.Data.String.Basic
import Bravo.Pair.Evaluation

/-! # Pair results are all or nothing

A return leaves the output with every file of the evaluation and a checksum file with a row for each. A raise
leaves both names as they were. The KAIST evaluator does so always; the cross-dataset evaluator does unless
something raises once its rename has taken effect, where the result stays although the evaluation failed.
-/

namespace Bravo.Pair

open List Dir

variable {o : Option Dir} {d : Dir} {m : Machine String World}

/-! ## Files of a directory -/

def World.hold (w : World) (d : Dir) : World := { w with staging := some d }

/-- `w` with a staging directory. -/
def World.Held (w w' : World) : Prop := ∃ d, w' = w.hold d

@[simp] theorem World.hold_hold (w : World) (d d' : Dir) : (w.hold d).hold d' = w.hold d' := rfl

@[simp] theorem World.mapStaging_hold (w : World) (d : Dir) (f : Dir → Dir) :
    (w.hold d).mapStaging f = w.hold (f d) := rfl

@[simp] theorem World.names_hold (w : World) (d : Dir) : (w.hold d).names = d.names := rfl

@[simp] theorem World.file_hold (w : World) (d : Dir) (path : String) : (w.hold d).file path = d.file path := rfl

variable {path : String}

theorem Dir.unlink_of_notMem (h : path ∉ d.names) : d.unlink path = d := by
  have hfiles : d.files.filter (fun entry => entry.1 ≠ path) = d.files :=
    filter_eq_self.mpr fun entry hentry =>
      decide_eq_true fun heq => h (mem_map.mpr ⟨entry, hentry, heq⟩)
  rw [unlink, hfiles]

theorem Dir.put_of_notMem (h : path ∉ d.names) (file : File) :
    d.put path file = { d with files := d.files ++ [(path, file)] } := by
  rw [put, unlink_of_notMem h]

theorem Dir.put_put (file file' : File) : (d.put path file).put path file' = d.put path file' := by
  simp [put, unlink, filter_append, filter_filter]

theorem Dir.notMem_unlink (path : String) : path ∉ (d.unlink path).names := by
  simp [names, unlink]

theorem Dir.names_put (path : String) (file : File) : (d.put path file).names = (d.unlink path).names ++ [path] := by
  simp [names, put]

theorem Dir.file_eq_some {file : File} (hnodup : d.names.Nodup) (h : (path, file) ∈ d.files) :
    d.file path = some file := by
  obtain ⟨directories, files⟩ := d
  induction files with
  | nil => cases h
  | cons entry files ih =>
    simp only [names, map_cons, nodup_cons] at hnodup
    rw [Dir.file, find?_cons]
    rcases mem_cons.mp h with rfl | h
    · simp
    · have hne : entry.1 ≠ path := fun heq => hnodup.1 (heq ▸ mem_map.mpr ⟨_, h, rfl⟩)
      rw [decide_eq_false hne]
      exact ih hnodup.2 h

theorem Dir.mem_of_file {file : File} (h : d.file path = some file) : (path, file) ∈ d.files := by
  obtain ⟨entry, hentry, rfl⟩ := Option.map_eq_some_iff.mp h
  have hname : entry.1 = path := by simpa using find?_some hentry
  rw [← hname]
  exact mem_of_find?_eq_some hentry

theorem Dir.file_of_mem_names (h : path ∈ d.names) : ∃ file, d.file path = some file := by
  obtain ⟨entry, hentry, rfl⟩ := mem_map.mp h
  rw [file]
  cases hfind : d.files.find? fun e => e.1 = entry.1 with
  | none => exact absurd (decide_eq_true rfl) (find?_eq_none.mp hfind entry hentry)
  | some found => exact ⟨found.2, rfl⟩

/-! ## Work in the staging directory -/

variable {w : World}

theorem performs_id {B : World → Prop} (hm : m.state = w) (hB : B w) :
    Performs 1 (operate id : Evaluating Unit) (fun _ s => s = w) B m :=
  (performs_operate id (hm ▸ hB) (hm ▸ hB)).mono fun _ _ h => h.trans hm

theorem performs_mapStaging (hm : m.state = w.hold d) (f : Dir → Dir) :
    Performs 1 (operate (World.mapStaging f) : Evaluating Unit) (fun _ s => s = w.hold (f d)) w.Held m := by
  have hf : m.state.mapStaging f = w.hold (f d) := by rw [hm, World.mapStaging_hold]
  exact (performs_operate _ ⟨d, hm⟩ ⟨f d, hf⟩).mono fun _ _ h => h.trans hf

theorem performs_writeNew {file : File} (hm : m.state = w.hold d) (hpath : path ∉ d.names) :
    Performs 3 (writeNew path file) (fun _ s => s = w.hold (d.put path file)) w.Held m := by
  have hnew : (m.state.names.contains path) = false := by
    rw [hm]
    simpa using hpath
  have hopen : (if m.state.names.contains path then
      (.error "refusing to overwrite output file" : Except String World)
    else .ok (m.state.mapStaging (put path (.content [])))) = .ok (w.hold (d.put path (.content []))) := by
    rw [hnew, hm]
    rfl
  show Performs (1 + (1 + 1)) _ _ _ m
  refine (performs_operateChecked hopen ⟨d, hm⟩ ⟨_, rfl⟩).bind fun _ m₁ h₁ => ?_
  refine (performs_mapStaging h₁ _).bind fun _ m₂ h₂ => performs_id ?_ ⟨_, rfl⟩
  rw [h₂, put_put]

def Action.cost : Action → Nat
  | .write _ => 3
  | _ => 1

def cost (actions : List Action) : Nat := (actions.map Action.cost).sum

def written : List Action → List String
  | [] => []
  | .write path :: actions => path :: written actions
  | _ :: actions => written actions

theorem performs_performAll (contents : String → List UInt8) (actions : List Action) :
    ∀ {d : Dir} {m : Machine String World}, m.state = w.hold d → (d.names ++ written actions).Nodup →
      Performs (cost actions) (performAll contents actions) (fun _ s => ∃ d', s = w.hold d' ∧
        d'.files = d.files ++ (written actions).map fun path => (path, .content (contents path))) w.Held m := by
  induction actions with
  | nil =>
    intro d m hm _
    exact .pure ⟨d, hm, (append_nil _).symm⟩
  | cons action actions ih =>
    intro d m hm hnodup
    show Performs (action.cost + cost actions) _ _ _ m
    rw [performAll]
    cases action with
    | check => exact (performs_id hm ⟨d, rfl⟩).bind fun _ m₁ h₁ => ih h₁ hnodup
    | mkdir name =>
      have hfiles : (d.mkdir name).files = d.files := by
        rw [mkdir]
        split <;> rfl
      rw [names, ← hfiles] at hnodup
      refine (performs_mapStaging hm _).bind fun _ m₁ h₁ => ?_
      rw [← hfiles]
      exact ih h₁ hnodup
    | write path =>
      have hpath : path ∉ d.names := fun hmem =>
        (nodup_append.mp hnodup).2.2 path hmem path mem_cons_self rfl
      have hnames : (d.put path (.content (contents path))).names = d.names ++ [path] := by
        rw [names_put, unlink_of_notMem hpath]
      have hnodup' : ((d.put path (.content (contents path))).names ++ written actions).Nodup := by
        rw [hnames, append_assoc]
        exact hnodup
      refine (performs_writeNew hm hpath).bind fun _ m₁ h₁ => (ih h₁ hnodup').mono fun _ _ h => ?_
      obtain ⟨d', hstate, hfiles⟩ := h
      refine ⟨d', hstate, ?_⟩
      rw [hfiles, put_of_notMem hpath, append_assoc]
      rfl

/-! ## Reading and the checksum file -/

theorem Dir.file_put_self (path : String) (file : File) : (d.put path file).file path = some file := by
  have hnone : (d.unlink path).files.find? (fun entry => entry.1 = path) = none :=
    find?_eq_none.mpr fun entry hentry heq =>
      notMem_unlink path (mem_map.mpr ⟨entry, hentry, of_decide_eq_true heq⟩)
  rw [Dir.file, Dir.put, find?_append, hnone]
  simp

theorem Dir.file_put_of_ne {path other : String} (h : other ≠ path) (file : File) :
    (d.put path file).file other = d.file other := by
  have hkept : (d.unlink path).files.find? (fun entry => entry.1 = other) =
      d.files.find? fun entry => entry.1 = other := by
    rw [unlink, find?_filter]
    refine find?_congr fun entry _ => ?_
    by_cases hentry : entry.1 = other
    · simp [hentry, h]
    · simp [hentry]
  rw [Dir.file, Dir.put, find?_append, hkept, Dir.file]
  simp [Ne.symm h]

variable {B : World → Prop}

theorem performs_readFile {file : File} (hfile : m.state.file path = some file) (hB : B m.state) :
    Performs 1 (readFile path) (fun read s => s = m.state ∧ read = file) B m := by
  refine (performs_query (·.file path) hB).bind (k := 0) fun found m₁ h₁ => ?_
  obtain ⟨hstate, rfl⟩ := h₁
  rw [hfile]
  exact .pure ⟨hstate, rfl⟩

theorem performs_readFiles (paths : List String) : ∀ {m : Machine String World},
    (∀ path ∈ paths, ∃ file, m.state.file path = some file) → B m.state →
    Performs paths.length (readFiles paths) (fun _ s => s = m.state) B m := by
  induction paths with
  | nil => exact fun _ _ => .pure rfl
  | cons path paths ih =>
    intro m hpaths hB
    obtain ⟨file, hfile⟩ := hpaths path mem_cons_self
    rw [readFiles, length_cons, Nat.add_comm]
    refine (performs_readFile hfile hB).bind fun _ m₁ h₁ => ?_
    rw [← h₁.1] at hpaths hB ⊢
    exact ih (fun path' hpath' => hpaths path' (mem_cons_of_mem path hpath')) hB

/-- The rows of the files at `paths`. -/
def Dir.rows (d : Dir) (paths : List String) : List (String × String) :=
  paths.filterMap fun path => (d.file path).map fun file => (file.digest, path)

theorem performs_writeSums (hsums : checksumPath ∉ d.names) (paths : List String) :
    ∀ {rows : List (String × String)} {m : Machine String World}, (∀ path ∈ paths, path ∈ d.names) →
      m.state = w.hold (d.put checksumPath (.sums rows)) →
      Performs (2 * paths.length) (writeSums rows paths)
        (fun _ s => s = w.hold (d.put checksumPath (.sums (rows ++ d.rows paths)))) w.Held m := by
  induction paths with
  | nil =>
    intro rows m _ hm
    exact .pure (by rw [hm, Dir.rows, filterMap_nil, append_nil])
  | cons path paths ih =>
    intro rows m hpaths hm
    have hmem := hpaths path mem_cons_self
    obtain ⟨file, hfile⟩ := file_of_mem_names hmem
    have hread : m.state.file path = some file := by
      rw [hm, World.file_hold, file_put_of_ne (ne_of_mem_of_not_mem hmem hsums), hfile]
    have hlength : 2 * (path :: paths).length = 1 + (1 + 2 * paths.length) := by
      rw [length_cons]
      omega
    have hrows : d.rows (path :: paths) = (file.digest, path) :: d.rows paths := by
      rw [Dir.rows, filterMap_cons, hfile]
      rfl
    rw [writeSums, hlength, hrows, ← singleton_append, ← append_assoc]
    refine (performs_readFile hread ⟨_, hm⟩).bind fun read m₁ h₁ => ?_
    obtain ⟨hstate, rfl⟩ := h₁
    refine (performs_mapStaging (hstate.trans hm) _).bind fun _ m₂ h₂ => ?_
    exact ih (fun path' hpath' => hpaths path' (mem_cons_of_mem path hpath')) (by rw [h₂, put_put])

theorem performs_checkSums (rows : List (String × String)) : ∀ {m : Machine String World},
    (∀ row ∈ rows, ∃ file, m.state.file row.2 = some file ∧ file.digest = row.1) → B m.state →
    Performs rows.length (checkSums rows) (fun _ s => s = m.state) B m := by
  induction rows with
  | nil => exact fun _ _ => .pure rfl
  | cons row rows ih =>
    intro m hrows hB
    obtain ⟨file, hfile, hdigest⟩ := hrows row mem_cons_self
    obtain ⟨digest, path⟩ := row
    rw [checkSums, length_cons, Nat.add_comm]
    refine (performs_readFile hfile hB).bind fun read m₁ h₁ => ?_
    obtain ⟨hstate, rfl⟩ := h₁
    rw [← hstate] at hrows hB ⊢
    rw [Performs, wp_bind, wp_onlyIf]
    refine ⟨fun hne => absurd hdigest (of_decide_eq_true hne), fun _ => ?_⟩
    exact ih (fun row' hrow' => hrows row' (mem_cons_of_mem _ hrow')) hB

theorem performs_verifySums {paths : List String} (hsums : checksumPath ∉ d.names)
    (hpaths : ∀ path ∈ paths, path ∈ d.names)
    (hm : m.state = w.hold (d.put checksumPath (.sums (d.rows paths)))) (hB : B m.state) :
    Performs (1 + (d.rows paths).length) verifySums (fun _ s => s = m.state) B m := by
  have hread : m.state.file checksumPath = some (.sums (d.rows paths)) := by
    rw [hm, World.file_hold, file_put_self]
  refine (performs_readFile hread hB).bind fun _ m₁ h₁ => ?_
  obtain ⟨hstate, rfl⟩ := h₁
  rw [← hstate] at hm hB ⊢
  refine performs_checkSums _ (fun row hrow => ?_) hB
  obtain ⟨path, hpath, hrow⟩ := mem_filterMap.mp hrow
  obtain ⟨file, hfile, rfl⟩ := Option.map_eq_some_iff.mp hrow
  refine ⟨file, ?_, rfl⟩
  rw [hm, World.file_hold, file_put_of_ne (ne_of_mem_of_not_mem (hpaths path hpath) hsums), hfile]

theorem length_rows {paths : List String} (hpaths : ∀ path ∈ paths, path ∈ d.names) :
    (d.rows paths).length = paths.length := by
  induction paths with
  | nil => rfl
  | cons path paths ih =>
    obtain ⟨file, hfile⟩ := file_of_mem_names (hpaths path mem_cons_self)
    rw [rows, filterMap_cons, hfile]
    have hrest := ih fun path' hpath' => hpaths path' (mem_cons_of_mem path hpath')
    rw [rows] at hrest
    simp [hrest]

/-! ## Complete results -/

/-- The directory has the files `paths` with their contents, and a checksum file with exactly one kind of rows:
the digest and the path of each other file. -/
structure Complete (contents : String → List UInt8) (paths : List String) (d : Dir) : Prop where
  results : ∀ path ∈ paths, d.file path = some (.content (contents path))
  sums : ∃ rows, d.file checksumPath = some (.sums rows) ∧
    (∀ path file, (path, file) ∈ d.files → path ≠ checksumPath → (file.digest, path) ∈ rows) ∧
    ∀ row ∈ rows, row.2 ≠ checksumPath ∧ ∃ file, d.file row.2 = some file ∧ row.1 = file.digest

theorem complete_of_rows {contents : String → List UInt8} {paths candidates : List String}
    (hnodup : d.names.Nodup) (hsums : checksumPath ∉ d.names)
    (hcandidates : ∀ path, path ∈ candidates ↔ path ∈ d.names)
    (hresults : ∀ path ∈ paths, d.file path = some (.content (contents path))) :
    Complete contents paths (d.put checksumPath (.sums (d.rows candidates))) where
  results path hpath := by
    have hmem : path ∈ d.names := mem_map.mpr ⟨_, mem_of_file (hresults path hpath), rfl⟩
    rw [file_put_of_ne (ne_of_mem_of_not_mem hmem hsums), hresults path hpath]
  sums := by
    refine ⟨_, file_put_self _ _, fun path file hfile hne => ?_, fun row hrow => ?_⟩
    · rw [put_of_notMem hsums] at hfile
      rcases mem_append.mp hfile with hfile | hfile
      · refine mem_filterMap.mpr ⟨path, (hcandidates path).mpr (mem_map.mpr ⟨_, hfile, rfl⟩), ?_⟩
        rw [file_eq_some hnodup hfile]
        rfl
      · rw [mem_singleton] at hfile
        exact absurd (congrArg Prod.fst hfile) hne
    · obtain ⟨path, hpath, hrow⟩ := mem_filterMap.mp hrow
      obtain ⟨file, hfile, rfl⟩ := Option.map_eq_some_iff.mp hrow
      have hne : path ≠ checksumPath := ne_of_mem_of_not_mem ((hcandidates path).mp hpath) hsums
      exact ⟨hne, file, by rw [file_put_of_ne hne, hfile], rfl⟩

/-- The property: a return leaves a complete output that was not there, a raise leaves everything as it was. -/
def AllOrNothing (contents : String → List UInt8) (paths : List String) (x : Evaluating File) (output : Option Dir)
    (script : List (Option (Raise String))) : Prop :=
  wp x (fun _ m' => output = none ∧ m'.state.staging = none ∧
      ∃ d, m'.state.output = some d ∧ Complete contents paths d)
    (fun _ m' => m'.state.output = output ∧ m'.state.staging = none) ⟨{ output := output }, script⟩

theorem performs_stagedPaths (hm : m.state = w.hold d) :
    Performs 1 stagedPaths (fun paths s => s = w.hold d ∧ paths.Perm d.names) w.Held m := by
  refine (performs_query _ ⟨d, hm⟩).mono fun paths s h => ⟨h.1.trans hm, ?_⟩
  rw [h.2, hm]
  exact mergeSort_perm _ _

theorem performs_openSums (hm : m.state = w.hold d) (hsums : checksumPath ∉ d.names) :
    Performs 1 openSums (fun _ s => s = w.hold (d.put checksumPath (.sums []))) w.Held m := by
  have hopen : (if m.state.names.contains checksumPath then (.error "File exists" : Except String World)
      else .ok (m.state.mapStaging (put checksumPath (.sums [])))) =
        .ok (w.hold (d.put checksumPath (.sums []))) := by
    rw [hm, World.names_hold, if_neg (by simpa using hsums)]
    rfl
  exact performs_operateChecked hopen ⟨d, hm⟩ ⟨_, rfl⟩

theorem performs_makeStaging (hm : m.state = {}) :
    Performs 2 makeStaging (fun _ s => s = ({} : World).hold {}) (fun s => s = {}) m := by
  let Empty (s : World) : Prop := s = {}
  show Performs (1 + (1 + 0)) _ _ Empty m
  refine Performs.bind (B := Empty) (performs_id hm rfl) fun _ m₁ h₁ => ?_
  refine Performs.bind (B := Empty) (performs_query _ h₁) fun taken m₂ h₂ => ?_
  obtain ⟨hstate, rfl⟩ := h₂
  rw [h₁, Performs, wp_bind, wp_onlyIf]
  refine ⟨fun htaken => (by cases htaken), fun _ => ⟨⟨quiet_zero _, rfl⟩, ?_⟩⟩
  show ({ m₂.state with staging := some {} } : World) = _
  rw [hstate, h₁]
  rfl

/-! ## The KAIST evaluator -/

namespace Kaist

def Recoverable (w : World) : Prop := (rollBack w).output = none

theorem recoverable_hold (d : Dir) (attempted : Bool) :
    Recoverable { ({} : World).hold d with installAttempted := attempted } := by
  cases attempted <;> rfl

theorem recoverable_replaced (d : Dir) (installed : Bool) :
    Recoverable { output := some d, installAttempted := true, installed := installed } := by
  cases installed <;> rfl

theorem recoverable_of_held (_ : String) (m : Machine String World) (h : ({} : World).Held m.state) :
    Recoverable m.state := by
  obtain ⟨d, hd⟩ := h
  exact hd ▸ recoverable_hold d false

theorem wp_stage (e : Evaluation) (hm : m.state = ({} : World).hold {}) :
    wp (stage e) (fun _ m' => ∃ d, m'.state = ({} : World).hold d ∧ Complete e.contents (written actions) d)
      (fun _ m' => Recoverable m'.state) m := by
  have hnodup : (written actions).Nodup := by decide
  refine (performs_performAll e.contents actions hm (by simpa [names] using hnodup)).wp_then (fun _ m₁ h₁ => ?_)
    recoverable_of_held
  obtain ⟨d, hm₁, hfiles⟩ := h₁
  have hnames : d.names = written actions := by
    rw [names, hfiles, nil_append, List.map_map]
    exact List.map_id _
  have hsums : checksumPath ∉ d.names := by
    rw [hnames]
    decide
  refine (performs_stagedPaths hm₁).wp_then (fun candidates m₂ h₂ => ?_) recoverable_of_held
  obtain ⟨hm₂, hperm⟩ := h₂
  have hmem : ∀ path ∈ candidates, path ∈ d.names := fun path hpath => hperm.mem_iff.mp hpath
  refine (performs_openSums hm₂ hsums).wp_then (fun _ m₃ h₃ => ?_) recoverable_of_held
  refine (performs_writeSums hsums candidates hmem h₃).wp_then (fun _ m₄ h₄ => ?_) recoverable_of_held
  refine (performs_id h₄ ⟨_, rfl⟩).wp_then (fun _ m₅ h₅ => ?_) recoverable_of_held
  refine (performs_id h₅ ⟨_, rfl⟩).wp_then (fun _ m₆ h₆ => ?_) recoverable_of_held
  refine (performs_verifySums hsums hmem h₆ ⟨_, h₆⟩).wp_then (fun _ m₇ h₇ => ?_) recoverable_of_held
  have hcomplete : Complete e.contents (written actions) (d.put checksumPath (.sums (d.rows candidates))) := by
    refine complete_of_rows (by rw [hnames]; exact hnodup) hsums (fun path => hperm.mem_iff) fun path hpath => ?_
    refine file_eq_some (by rw [hnames]; exact hnodup) ?_
    rw [hfiles]
    exact mem_map.mpr ⟨path, hpath, rfl⟩
  rw [h₆, nil_append] at h₇
  generalize d.put checksumPath (.sums (d.rows candidates)) = sealed at hcomplete h₇
  refine (performs_id h₇ ⟨_, rfl⟩).wp_then (fun _ m₈ h₈ => ?_) recoverable_of_held
  have hread : m₈.state.file resultPath = some (.content (e.contents resultPath)) := by
    rw [h₈]
    exact hcomplete.results resultPath (by decide)
  refine (performs_readFile hread ⟨_, h₈⟩).wp_then (fun stagedResult m₉ h₉ => ?_) recoverable_of_held
  refine (performs_id (h₉.1.trans h₈) ⟨_, rfl⟩).wp_then (fun _ m₁₀ h₁₀ => ?_) recoverable_of_held
  refine (performs_query _ ⟨_, h₁₀⟩).wp_then (fun appeared m₁₁ h₁₁ => ?_) recoverable_of_held
  obtain ⟨hstate, rfl⟩ := h₁₁
  rw [h₁₀, wp_bind, wp_onlyIf]
  refine ⟨fun happeared => (by cases happeared), fun _ => ?_⟩
  exact (performs_id (hstate.trans h₁₀) ⟨_, rfl⟩).wp_then (fun _ _ h => ⟨sealed, h, hcomplete⟩) recoverable_of_held

theorem wp_replaceStaged (hm : m.state = ({} : World).hold d) :
    wp replaceStaged
      (fun _ m' => m'.state = { output := some d, installAttempted := true, installed := true })
      (fun _ m' => Recoverable m'.state) m := by
  refine (performs_id hm (recoverable_hold d false)).wp_then (fun _ m₁ h₁ => ?_) (fun _ _ h => h)
  rw [wp_bind, wp_update]
  have hreplace : replaceOutput { m₁.state with installAttempted := true } =
      .ok { output := some d, installAttempted := true } := by
    rw [h₁]
    rfl
  refine (performs_operateChecked hreplace (B := Recoverable) ?_ (recoverable_replaced d false)).wp_then
    (fun _ m₂ h₂ => ?_) (fun _ _ h => h)
  · show Recoverable { m₁.state with installAttempted := true }
    rw [h₁]
    exact recoverable_hold d true
  rw [wp_bind, wp_update]
  have hm₂ : ({ m₂.state with installed := true } : World) =
      { output := some d, installAttempted := true, installed := true } := by rw [h₂]
  exact wp_mono (performs_id hm₂ (recoverable_replaced d true)) (fun _ _ h => h.2) (fun _ _ h => h.2)

theorem wp_install (e : Evaluation) (hm : m.state = ({} : World).hold {}) :
    wp (install e)
      (fun _ m' => m'.state.staging = none ∧
        ∃ d, m'.state.output = some d ∧ Complete e.contents (written actions) d)
      (fun _ m' => Recoverable m'.state) m := by
  rw [install, wp_bind]
  refine wp_mono (wp_stage e hm) (fun stagedResult m₁ h₁ => ?_) (fun _ _ h => h)
  obtain ⟨d, hm₁, hcomplete⟩ := h₁
  rw [wp_bind, wp_attempt]
  refine wp_mono (wp_replaceStaged hm₁) (fun _ m₂ h₂ => ?_) (fun _ m₂ h₂ => ?_)
  · refine (performs_id h₂ (recoverable_replaced d true)).wp_then (fun _ m₃ h₃ => ?_) (fun _ _ h => h)
    exact ⟨by rw [h₃], d, by rw [h₃], hcomplete⟩
  · exact (performs_id rfl h₂).wp_then (fun _ m₃ h₃ => (show Recoverable m₃.state from h₃ ▸ h₂)) (fun _ _ h => h)

theorem evaluatePair_allOrNothing (e : Evaluation) (output : Option Dir) (script : List (Option (Raise String))) :
    AllOrNothing e.contents (written actions) (evaluatePair e) output script := by
  let Kept (s : World) : Prop := s.output = output ∧ s.staging = none
  have hkept : Kept { output := output } := ⟨rfl, rfl⟩
  rw [AllOrNothing, evaluatePair]
  refine (performs_id rfl hkept).wp_then (fun _ m₁ h₁ => ?_) (fun _ _ h => h)
  refine (performs_query (B := Kept) _ (h₁ ▸ hkept)).wp_then (fun found m₂ h₂ => ?_) (fun _ _ h => h)
  obtain ⟨hstate₂, rfl⟩ := h₂
  have hm₂ := hstate₂.trans h₁
  rw [h₁, wp_bind, wp_onlyIf]
  refine ⟨fun _ => show Kept m₂.state from hm₂ ▸ hkept, fun hfree => ?_⟩
  have hnone : output = none := Option.not_isSome_iff_eq_none.mp (by simpa using hfree)
  subst hnone
  refine (performs_id hm₂ hkept).wp_then (fun _ m₃ h₃ => ?_) (fun _ _ h => h)
  refine (performs_query (B := Kept) _ (h₃ ▸ hkept)).wp_then (fun taken m₄ h₄ => ?_) (fun _ _ h => h)
  obtain ⟨hstate₄, rfl⟩ := h₄
  rw [h₃, wp_bind, wp_onlyIf]
  refine ⟨fun htaken => (by cases htaken), fun _ => ?_⟩
  refine (performs_makeStaging (hstate₄.trans h₃)).wp_then (fun _ m₅ h₅ => ?_) (fun _ m₅ h₅ => h₅ ▸ hkept)
  rw [wp_bind, wp_attempt]
  refine wp_mono (wp_install e h₅) (fun _ m₆ h₆ => ⟨rfl, h₆⟩) (fun _ m₆ h₆ => ?_)
  rw [wp_bind, wp_update]
  exact ⟨h₆, rfl⟩

end Kaist

/-! ## The cross-dataset evaluator -/

namespace CrossDataset

/-- The operations of `_publish_pair_result` up to the rename, after `k` files. -/
def prepareCost (k : Nat) : Nat := 4 * k + 18

variable {e : Evaluation}

theorem performs_rewriteResult {w : World} (hm : m.state = w.hold d) (hresult : resultPath ∉ d.names) :
    Performs (d.names.length + 8) (rewriteResult e)
      (fun _ s => s = w.hold (d.put resultPath (.content (e.contents resultPath)))) w.Held m := by
  have hdraft : (d.put resultPath (.content e.draft)).names = d.names ++ [resultPath] := by
    rw [names_put, unlink_of_notMem hresult]
  have hcost : d.names.length + 8 = 3 + (1 + (d.names.length + (1 + 3))) := by omega
  rw [rewriteResult, hcost]
  refine (performs_writeNew hm hresult).bind fun _ m₁ h₁ => (performs_stagedPaths h₁).bind fun files m₂ h₂ => ?_
  obtain ⟨hm₂, hperm⟩ := h₂
  have hothers : (files.filter fun path => path ≠ resultPath).Perm d.names := by
    refine (hperm.filter _).trans ?_
    rw [hdraft, filter_append, filter_eq_self.mpr fun path hpath => ?_]
    · simp
    · exact decide_eq_true (ne_of_mem_of_not_mem hpath hresult)
  have hfound : ∀ path ∈ files.filter (fun path => path ≠ resultPath), ∃ file, m₂.state.file path = some file := by
    intro path hpath
    rw [hm₂]
    refine file_of_mem_names ?_
    rw [hdraft]
    exact mem_append_left _ (hothers.mem_iff.mp hpath)
  rw [← hothers.length_eq]
  refine (performs_readFiles _ hfound ⟨_, hm₂⟩).bind fun _ m₃ h₃ => ?_
  refine (performs_mapStaging (h₃.trans hm₂) _).bind fun _ m₄ h₄ => performs_writeNew ?_ hresult
  have hfiles := congrArg Dir.files (Dir.unlink_of_notMem hresult)
  have hunlink : (d.put resultPath (.content e.draft)).unlink resultPath = d := by
    rw [put_of_notMem hresult, unlink, filter_append]
    simp only [unlink] at hfiles
    rw [hfiles]
    simp
  rw [h₄, hunlink]

theorem performs_sealPublication {w : World} (hm : m.state = w.hold d) (hsums : checksumPath ∉ d.names) :
    Performs (3 * d.names.length + 7) sealPublication (fun _ s => ∃ listed : List String, listed.Perm d.names ∧
      s = w.hold (d.put checksumPath (.sums (d.rows listed)))) w.Held m := by
  have hcost : 3 * d.names.length + 7 =
      1 + (1 + (2 * d.names.length + (1 + ((1 + d.names.length) + (1 + (1 + 1)))))) := by omega
  rw [sealPublication, hcost]
  refine (performs_openSums hm hsums).bind fun _ m₁ h₁ => (performs_stagedPaths h₁).bind fun candidates m₂ h₂ => ?_
  obtain ⟨hm₂, hperm⟩ := h₂
  have hlisted : (candidates.filter fun path => path ≠ checksumPath).Perm d.names := by
    refine (hperm.filter _).trans ?_
    rw [names_put, unlink_of_notMem hsums, filter_append,
      filter_eq_self.mpr fun path hpath => decide_eq_true (ne_of_mem_of_not_mem hpath hsums)]
    simp
  generalize candidates.filter (fun path => path ≠ checksumPath) = listed at hlisted
  have hmem : ∀ path ∈ listed, path ∈ d.names := fun path hpath => hlisted.mem_iff.mp hpath
  have hrows : (d.rows listed).length = d.names.length := (length_rows hmem).trans hlisted.length_eq
  rw [← hlisted.length_eq]
  refine (performs_writeSums hsums listed hmem hm₂).bind fun _ m₃ h₃ => ?_
  refine (performs_id h₃ ⟨_, rfl⟩).bind fun _ m₄ h₄ => ?_
  rw [hlisted.length_eq, ← hrows]
  refine (performs_verifySums hsums hmem h₄ ⟨_, h₄⟩).bind fun _ m₅ h₅ => ?_
  refine (performs_id (h₅.trans h₄) ⟨_, rfl⟩).bind fun _ m₆ h₆ => (performs_id h₆ ⟨_, rfl⟩).bind fun _ m₇ h₇ => ?_
  exact (performs_id h₇ ⟨_, rfl⟩).mono fun _ _ h => ⟨listed, hlisted, h⟩

theorem performs_preparePublication {w : World} (hm : m.state = w.hold d) (hnodup : d.names.Nodup)
    (hresult : resultPath ∉ d.names) (hsums : checksumPath ∉ d.names)
    (hcontents : ∀ path file, (path, file) ∈ d.files → file = .content (e.contents path)) :
    Performs (prepareCost d.names.length) (preparePublication e)
      (fun _ s => ∃ d', s = w.hold d' ∧ Complete e.contents (d.names ++ [resultPath]) d') w.Held m := by
  -- the files that the checksum file is about
  have hfinal : (d.put resultPath (.content (e.contents resultPath))).names = d.names ++ [resultPath] := by
    rw [names_put, unlink_of_notMem hresult]
  have hfinalNodup : (d.put resultPath (.content (e.contents resultPath))).names.Nodup := by
    rw [hfinal]
    exact nodup_append.mpr ⟨hnodup, nodup_singleton _, fun a ha b hb =>
      ne_of_mem_of_not_mem ha (mem_singleton.mp hb ▸ hresult)⟩
  have hfinalSums : checksumPath ∉ (d.put resultPath (.content (e.contents resultPath))).names := by
    rw [hfinal]
    intro hmem
    rcases mem_append.mp hmem with hmem | hmem
    · exact hsums hmem
    · exact absurd (mem_singleton.mp hmem) (by decide)
  have hfinalContents : ∀ path ∈ d.names ++ [resultPath],
      (d.put resultPath (.content (e.contents resultPath))).file path = some (.content (e.contents path)) := by
    intro path hpath
    rcases mem_append.mp hpath with hpath | hpath
    · obtain ⟨entry, hentry, rfl⟩ := mem_map.mp hpath
      rw [file_put_of_ne (ne_of_mem_of_not_mem hpath hresult), file_eq_some hnodup hentry,
        hcontents _ _ hentry]
    · rw [mem_singleton.mp hpath, file_put_self]
  have hcost : prepareCost d.names.length = (d.names.length + 8) +
      (3 * (d.put resultPath (.content (e.contents resultPath))).names.length + 7) := by
    rw [hfinal, length_append, prepareCost, length_singleton]
    omega
  rw [preparePublication, hcost]
  refine (performs_rewriteResult hm hresult).bind fun _ m₁ h₁ => (performs_sealPublication h₁ hfinalSums).mono ?_
  rintro _ s ⟨listed, hlisted, hs⟩
  exact ⟨_, hs, complete_of_rows hfinalNodup hfinalSums (fun path => hlisted.mem_iff) hfinalContents⟩

variable (population : Population)

/-- The operations of `evaluate_pair` up to the rename. -/
def operationsBeforeRename : Nat :=
  4 + cost (actions population) + prepareCost (written (actions population)).length

/-- The evaluation reaches its rename, and the rename raises after its effect, or it returns and the sync of the
parent directory or the final read raises. -/
def RaisesAfterRename (output : Option Dir) (script : List (Option (Raise String))) : Prop :=
  output = none ∧ Quiet (operationsBeforeRename population) script ∧
    ((∃ r, (script.drop (operationsBeforeRename population)).head?.join = some r ∧ r.applied = true) ∨
      (script.drop (operationsBeforeRename population)).head?.join = none ∧
        ¬ Quiet 2 (script.drop (operationsBeforeRename population + 1)))

/-- `n` operations return, and what is behind the effect of the next one raises. -/
def RaisesBehind (n : Nat) (script : List (Option (Raise String))) : Prop :=
  Quiet n script ∧ ((∃ r, (script.drop n).head?.join = some r ∧ r.applied = true) ∨
    (script.drop n).head?.join = none ∧ ¬ Quiet 2 (script.drop (n + 1)))

theorem raisesBehind_passed {k n : Nat} {m' : Machine String World} (h : Passed k m m') :
    RaisesBehind (k + n) m.script ↔ RaisesBehind n m'.script := by
  rw [RaisesBehind, RaisesBehind, quiet_add, h.rest, drop_drop, drop_drop, Nat.add_assoc k n 1]
  exact ⟨fun hr => ⟨hr.1.2, hr.2⟩, fun hr => ⟨⟨h.quiet, hr.1⟩, hr.2⟩⟩

theorem wp_publishPairResult (hm : m.state = ({} : World).hold d) (hnodup : d.names.Nodup)
    (hresult : resultPath ∉ d.names) (hsums : checksumPath ∉ d.names)
    (hcontents : ∀ path file, (path, file) ∈ d.files → file = .content (e.contents path)) :
    wp (publishPairResult e)
      (fun _ m' => ¬ RaisesBehind (prepareCost d.names.length) m.script ∧ m'.state.staging = none ∧
        ∃ d', m'.state.output = some d' ∧ Complete e.contents (d.names ++ [resultPath]) d')
      (fun _ m' =>
        ¬ RaisesBehind (prepareCost d.names.length) m.script ∧ (∃ d', m'.state = ({} : World).hold d') ∨
        RaisesBehind (prepareCost d.names.length) m.script ∧ ∃ d', m'.state = { output := some d' }) m := by
  rw [publishPairResult, wp_bind]
  refine wp_mono (performs_preparePublication hm hnodup hresult hsums hcontents) (fun _ m₁ h₁ => ?_)
    (fun _ m₁ h₁ => .inl ⟨fun h => h₁.1 h.1, h₁.2⟩)
  obtain ⟨hpassed, published, hm₁, hcomplete⟩ := h₁
  rw [← Nat.add_zero (prepareCost _), raisesBehind_passed hpassed]
  have hrename : publishDirectoryNoReplace m₁.state = .ok { output := some published } := by
    rw [hm₁]
    rfl
  rw [wp_bind, operateChecked, wp_bind, wp_get, hrename]
  refine wp_operate_head (fun hhead => ?_) (fun r hr => ?_)
  · -- the rename returned: what raises now leaves the result
    have hafter : ¬ Quiet 2 m₁.script.tail → RaisesBehind 0 m₁.script := fun hraised =>
      ⟨quiet_zero _, .inr ⟨hhead, by rwa [zero_add, drop_one]⟩⟩
    rw [wp_bind]
    refine wp_mono (wp_operate_passed id _) (fun _ m₂ h₂ => ?_) (fun _ m₂ h₂ => .inr ?_)
    case refine_2 =>
      exact ⟨hafter fun hquiet => h₂.1 (quiet_add.mp (show Quiet (1 + 1) _ from hquiet)).1, published,
        h₂.2.elim id id⟩
    rw [loadPublished, wp_bind]
    refine wp_mono (wp_query_passed _ m₂) (fun file m₃ h₃ => ?_) (fun _ m₃ h₃ => .inr ?_)
    case refine_2 => exact ⟨hafter (h₂.1.not_quiet h₃.1 le_rfl), published, h₃.2.trans h₂.2⟩
    obtain ⟨hlast, hstate, rfl⟩ := h₃
    have hfile := hcomplete.results resultPath (mem_append_right _ mem_cons_self)
    have hread : (m₂.state.output.bind fun d => d.file resultPath) = some (.content (e.contents resultPath)) := by
      rw [h₂.2]
      exact hfile
    rw [hread]
    have hm₃ : m₃.state = { output := some published } := hstate.trans h₂.2
    refine ⟨?_, by rw [hm₃], published, by rw [hm₃], hcomplete⟩
    rintro ⟨-, ⟨r, hr, -⟩ | ⟨-, hraised⟩⟩
    · cases hhead.symm.trans hr
    · rw [zero_add, drop_one] at hraised
      exact hraised (h₂.1.trans hlast).quiet
  · cases happlied : r.applied with
    | false =>
      refine .inl ⟨?_, published, hm₁⟩
      rintro ⟨-, ⟨r', hr', happlied'⟩ | ⟨hnone, -⟩⟩
      · cases hr.symm.trans hr'
        rw [happlied] at happlied'
        cases happlied'
      · cases hr.symm.trans hnone
    | true => exact .inr ⟨⟨quiet_zero _, .inl ⟨r, hr, happlied⟩⟩, published, rfl⟩

theorem written_nodup : (written (actions population)).Nodup := by
  cases population <;> decide

theorem resultPath_notMem : resultPath ∉ written (actions population) := by
  cases population <;> decide

theorem checksumPath_notMem : checksumPath ∉ written (actions population) := by
  cases population <;> decide

theorem wp_evaluatePair (e : Evaluation) (population : Population) (script : List (Option (Raise String))) :
    wp (evaluatePair e population)
      (fun _ m' => ¬ RaisesAfterRename population none script ∧ m'.state.staging = none ∧
        ∃ d, m'.state.output = some d ∧ Complete e.contents (written (actions population) ++ [resultPath]) d)
      (fun _ m' => (¬ RaisesAfterRename population none script ∧ m'.state.output = none ∧ m'.state.staging = none) ∨
        (RaisesAfterRename population none script ∧ m'.state.output ≠ none)) ⟨{}, script⟩ := by
  -- an operation that raises before the rename
  have hearly : ∀ {n j : Nat} {m' : Machine String World}, Passed n ⟨({} : World), script⟩ m' →
      ¬ Quiet j m'.script → n + j ≤ 4 → ¬ RaisesAfterRename population none script :=
    fun hpassed hquiet hle hafter => hpassed.not_quiet (k := operationsBeforeRename population) hquiet
      (le_trans hle (by rw [operationsBeforeRename]; omega)) hafter.2.1
  rw [evaluatePair, wp_bind]
  refine wp_mono (wp_query_passed _ _) (fun found m₁ h₁ => ?_)
    (fun _ m₁ h₁ => .inl ⟨hearly (.refl _) h₁.1 (by omega), by rw [h₁.2], by rw [h₁.2]⟩)
  obtain ⟨hpass₁, hstate₁, rfl⟩ := h₁
  rw [wp_bind, wp_onlyIf]
  refine ⟨fun hfound => (by cases hfound), fun _ => ?_⟩
  rw [wp_bind]
  refine wp_mono (performs_id (B := fun s => s = {}) hstate₁ rfl) (fun _ m₂ h₂ => ?_)
    (fun _ m₂ h₂ => .inl ⟨hearly hpass₁ h₂.1 (by omega), by rw [h₂.2], by rw [h₂.2]⟩)
  have hpassed₂ := hpass₁.trans h₂.1
  rw [wp_bind]
  refine wp_mono (performs_makeStaging h₂.2) (fun _ m₃ h₃ => ?_)
    (fun _ m₃ h₃ => .inl ⟨hearly hpassed₂ h₃.1 (by omega), by rw [h₃.2], by rw [h₃.2]⟩)
  have hpassed₃ : Passed 4 ⟨({} : World), script⟩ m₃ := hpassed₂.trans h₃.1
  rw [wp_bind, wp_attempt, wp_bind]
  have hnodup : (written (actions population)).Nodup := written_nodup population
  refine wp_mono (performs_performAll e.contents (actions population) h₃.2 (by simpa [names] using hnodup))
    (fun _ m₄ h₄ => ?_) (fun _ m₄ h₄ => ?_)
  case refine_2 =>
    obtain ⟨hraised, d', hstate⟩ := h₄
    rw [wp_bind, wp_update]
    refine .inl ⟨fun hafter => ?_, by rw [hstate]; rfl, rfl⟩
    exact hpassed₃.not_quiet (k := operationsBeforeRename population) hraised
      (by rw [operationsBeforeRename]; omega) hafter.2.1
  obtain ⟨hpass₄, d, hm₄, hfiles⟩ := h₄
  have hpassed₄ := hpassed₃.trans hpass₄
  have hnames : d.names = written (actions population) := by
    rw [names, hfiles, nil_append, List.map_map]
    exact List.map_id _
  have hcontents : ∀ path file, (path, file) ∈ d.files → file = .content (e.contents path) := by
    intro path file hmem
    rw [hfiles] at hmem
    obtain ⟨path', -, heq⟩ := mem_map.mp hmem
    cases heq
    rfl
  have hpublish := wp_publishPairResult (e := e) hm₄ (hnames ▸ hnodup)
    (hnames ▸ resultPath_notMem population) (hnames ▸ checksumPath_notMem population) hcontents
  have hafter : RaisesAfterRename population none script ↔ RaisesBehind (prepareCost d.names.length) m₄.script := by
    rw [← raisesBehind_passed hpassed₄, hnames]
    exact and_iff_right rfl
  rw [hafter]
  rw [hnames] at hpublish ⊢
  refine wp_mono hpublish (fun _ m₅ h₅ => h₅) (fun _ m₅ h₅ => ?_)
  rw [wp_bind, wp_update]
  rcases h₅ with ⟨hbefore, d', hstate⟩ | ⟨hraised, d', hstate⟩
  · exact .inl ⟨hbefore, by rw [hstate]; rfl, rfl⟩
  · refine .inr ⟨hraised, ?_⟩
    rw [hstate]
    exact Option.some_ne_none d'

theorem not_allOrNothing_of_raises {population : Population}
    {script : List (Option (Raise String))} {paths : List String}
    (hraises : RaisesAfterRename population none script) :
    ¬ AllOrNothing e.contents paths (evaluatePair e population) none script := by
  intro h
  have hrun := wp_evaluatePair e population script
  rw [AllOrNothing] at h
  cases hresult : (evaluatePair e population).run ⟨{}, script⟩ with
  | ok file m' =>
    rw [wp_of_ok hresult] at hrun
    exact hrun.1 hraises
  | error e' m' =>
    rw [wp_of_error hresult] at hrun h
    rcases hrun with ⟨hnot, -, -⟩ | ⟨-, hleft⟩
    · exact hnot hraises
    · exact hleft h.1

theorem allOrNothing_of_not_raises {population : Population} {output : Option Dir}
    {script : List (Option (Raise String))} (hnot : ¬ RaisesAfterRename population output script) :
    AllOrNothing e.contents (written (actions population) ++ [resultPath]) (evaluatePair e population) output
      script := by
  cases output with
  | none =>
    refine wp_mono (wp_evaluatePair e population script) (fun _ _ h => ⟨rfl, h.2⟩) (fun _ _ h => ?_)
    rcases h with ⟨-, h⟩ | ⟨hraises, -⟩
    · exact h
    · exact absurd hraises hnot
  | some d =>
    rw [AllOrNothing, evaluatePair, wp_bind]
    refine wp_mono (wp_query_passed _ _) (fun found m₁ h₁ => ?_) (fun _ m₁ h₁ => by rw [h₁.2]; exact ⟨rfl, rfl⟩)
    obtain ⟨-, hstate, rfl⟩ := h₁
    rw [wp_bind, wp_onlyIf]
    refine ⟨fun _ => ?_, fun hfree => (by cases hfree)⟩
    show m₁.state.output = some d ∧ m₁.state.staging = none
    rw [hstate]
    exact ⟨rfl, rfl⟩

end CrossDataset

/-- The output of the KAIST evaluator is all or nothing in every run. That of the cross-dataset evaluator is so
exactly where nothing raises from the moment on at which its rename has taken effect. -/
theorem pair_output_all_or_nothing_iff (e : Evaluation) (population : CrossDataset.Population)
    (output : Option Dir) (script : List (Option (Raise String))) :
    AllOrNothing e.contents (written Kaist.actions) (Kaist.evaluatePair e) output script ∧
    (AllOrNothing e.contents (written (CrossDataset.actions population) ++ [resultPath])
        (CrossDataset.evaluatePair e population) output script ↔
      ¬ CrossDataset.RaisesAfterRename population output script) := by
  refine ⟨Kaist.evaluatePair_allOrNothing e output script, fun h hraises => ?_,
    CrossDataset.allOrNothing_of_not_raises⟩
  have hnone : output = none := hraises.1
  subst hnone
  exact CrossDataset.not_allOrNothing_of_raises hraises h

/-- The sync of the parent directory raises behind the rename: the evaluation fails and its result stays. -/
theorem pair_result_left_after_failure :
    ¬ AllOrNothing (fun _ => []) ["associations/common_population.csv", resultPath]
      (CrossDataset.evaluatePair ⟨fun _ => [], []⟩ .insufficientPoses) none
      (List.replicate 34 none ++ [some ⟨"Input/output error", false⟩]) := by
  refine CrossDataset.not_allOrNothing_of_raises (e := ⟨fun _ => [], []⟩) ⟨rfl, by decide, .inr ⟨rfl, by decide⟩⟩

end Bravo.Pair
