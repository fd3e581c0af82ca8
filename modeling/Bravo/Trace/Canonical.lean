import Bravo.Basic.Binary64
import Bravo.Trace.Sha256

/-! # Canonical encodings

The primitive encodings of `CP2CanonicalBuffer` and the bounded reader that the trace codecs use
to decode them (`CanonicalReader`; the reader of the state codec has the same methods and the
same bodies). Every method comes with the format it reads.

A byte string is a list, so sizes are natural numbers; where the code converts a size to a
`uint64_t` the conversion is explicit. Strings are the list of their bytes.
-/

namespace Bravo.Trace

/-- The largest `Eigen::Index`, plus one. -/
abbrev indexLimit : Nat := 2 ^ 63

/-! ## Matrices -/

/-- `Eigen::MatrixXd`, by its coefficients in logical row-major order. -/
structure MatrixXd where
  rows : Nat
  cols : Nat
  coeffs : List Binary64
  length_eq : coeffs.length = rows * cols
  rows_lt : rows < indexLimit
  cols_lt : cols < indexLimit
deriving DecidableEq, Repr

structure VectorXd where
  coeffs : List Binary64
  rows_lt : coeffs.length < indexLimit
deriving DecidableEq, Repr

def MatrixXd.coeff (M : MatrixXd) (row col : Nat) : Binary64 := M.coeffs.getD (row * M.cols + col) ⟨0⟩

def MatrixXd.allFinite (M : MatrixXd) : Bool := M.coeffs.all Binary64.isFinite

def VectorXd.rows (v : VectorXd) : Nat := v.coeffs.length

def VectorXd.allFinite (v : VectorXd) : Bool := v.coeffs.all Binary64.isFinite

def MatrixXd.empty : MatrixXd := ⟨0, 0, [], rfl, by decide, by decide⟩

def VectorXd.empty : VectorXd := ⟨[], by decide⟩

theorem one_lt_indexLimit : 1 < indexLimit := by decide

instance : Inhabited MatrixXd := ⟨MatrixXd.empty⟩

/-! ## Appending -/

def appendU64 (value : UInt64) : List UInt8 := bigEndian value

/-- `AppendI64`: the bits of a two's complement value. -/
def appendI64 (value : Int64) : List UInt8 := appendU64 value.toUInt64

def appendBinary64 (value : Binary64) : List UInt8 := appendU64 value.bits

/-- `AppendUtf8`, on the bytes of a valid string. -/
def appendUtf8 (value : List UInt8) : List UInt8 :=
  appendU64 (UInt64.ofNat value.length) ++ value

def appendMatrix (M : MatrixXd) : List UInt8 :=
  appendU64 (UInt64.ofNat M.rows) ++ appendU64 (UInt64.ofNat M.cols) ++
    M.coeffs.flatMap appendBinary64

/-- `AppendVector`: the matrix encoding with one column. -/
def appendVector (v : VectorXd) : List UInt8 :=
  appendU64 (UInt64.ofNat v.rows) ++ appendU64 1 ++ v.coeffs.flatMap appendBinary64

@[simp] theorem length_appendU64 (v : UInt64) : (appendU64 v).length = 8 := rfl

@[simp] theorem length_appendI64 (v : Int64) : (appendI64 v).length = 8 := rfl

@[simp] theorem length_appendBinary64 (x : Binary64) : (appendBinary64 x).length = 8 := rfl

@[simp] theorem length_appendUtf8 (bytes : List UInt8) :
    (appendUtf8 bytes).length = 8 + bytes.length := by
  simp [appendUtf8]

@[simp] theorem length_appendMatrix (M : MatrixXd) :
    (appendMatrix M).length = 16 + M.coeffs.length * 8 := by
  simp [appendMatrix]
  omega

@[simp] theorem length_appendVector (v : VectorXd) :
    (appendVector v).length = 16 + v.coeffs.length * 8 := by
  simp [appendVector]
  omega

/-- `checked_u64` on a size. -/
def checkedU64 (value : Nat) (what : String) : Except String UInt64 :=
  if 2 ^ 64 ≤ value then .error (what ++ " exceeds u64") else .ok (UInt64.ofNat value)

theorem checkedU64_eq_ok {value : Nat} {what : String} {v : UInt64} :
    checkedU64 value what = .ok v ↔ v.toNat = value := by
  unfold checkedU64
  split
  · rename_i hge
    refine iff_of_false (fun h => by cases h) ?_
    have := v.toNat_lt
    omega
  · rename_i hlt
    simp only [Except.ok.injEq]
    constructor
    · rintro rfl
      rw [UInt64.toNat_ofNat']
      omega
    · rintro rfl
      exact UInt64.ofNat_toNat

/-! ## Limits -/

structure CP2TraceDecodeLimits where
  maximumFileBytes : UInt64 := 2147483648
  maximumPayloadBytes : UInt64 := 536870912
  maximumFrames : UInt64 := 1000000
  maximumMatrixCoefficients : UInt64 := 67108864
  maximumTotalMatrixCoefficients : UInt64 := 134217728
  maximumVectorRows : UInt64 := 67108864
  maximumLayoutBlocks : UInt64 := 1048576
deriving DecidableEq, Repr

def CP2TraceDecodeLimits.budget (limits : CP2TraceDecodeLimits) : Nat :=
  limits.maximumTotalMatrixCoefficients.toNat

/-! ## Reading -/

section Reader

variable (limits : CP2TraceDecodeLimits)

/-- `Expect` -/
def expectBytes (expected : List UInt8) (what : String) : Reader Unit := do
  let bytes ← takeBytes expected.length ("truncated " ++ what)
  reject (bytes != expected) ("invalid " ++ what)

def readU8 (what : String) : Reader UInt8 := do
  let bytes ← takeBytes 1 ("truncated " ++ what)
  return bytes.headD 0

def readU64 (what : String) : Reader UInt64 := do
  let bytes ← takeBytes 8 ("truncated " ++ what)
  return ofBigEndian bytes

def readI64 (what : String) : Reader Int64 := do
  let bits ← readU64 what
  return bits.toInt64

def readBinary64 (what : String) : Reader Binary64 := do
  let bits ← readU64 what
  return ⟨bits⟩

def checkedCoefficientCount (rows columns : UInt64) (what : String) : Reader Nat := do
  reject (rows != 0 && decide ((2 ^ 64 - 1) / rows.toNat < columns.toNat))
    (what ++ " coefficient count overflows u64")
  reject (decide (limits.maximumMatrixCoefficients.toNat < rows.toNat * columns.toNat))
    (what ++ " exceeds configured coefficient limit")
  reject (decide (indexLimit ≤ rows.toNat) || decide (indexLimit ≤ columns.toNat))
    (what ++ " dimension exceeds Eigen::Index")
  return rows.toNat * columns.toNat

def consumeCoefficients (coefficients : Nat) (what : String) : Reader Unit := fun s =>
  if limits.budget < coefficients ∨ limits.budget - coefficients < s.spent then
    .error (what ++ " exceeds configured aggregate coefficient limit")
  else .ok (⟨⟩, { s with spent := s.spent + coefficients })

def requireCoefficientBytes (coefficients : Nat) (what : String) : Reader Unit := fun s =>
  if s.rest.length < coefficients * 8 then
    .error (if 2 ^ 64 ≤ coefficients * 8 then what ++ " byte count exceeds size_t"
      else "truncated " ++ what)
  else .ok (⟨⟩, s)

/-- The coefficients of a matrix or vector: paid for, checked against the bytes ahead, read. -/
def readCoefficients (coefficients : Nat) (what : String) : Reader (List Binary64) := do
  consumeCoefficients limits coefficients what
  requireCoefficientBytes coefficients what
  readMany (readBinary64 what) coefficients

def readMatrix (what : String) : Reader MatrixXd := do
  let rows ← readU64 what
  let columns ← readU64 what
  let coefficients ← checkedCoefficientCount limits rows columns what
  let coeffs ← readCoefficients limits coefficients what
  if h : coeffs.length = rows.toNat * columns.toNat ∧ rows.toNat < indexLimit ∧
      columns.toNat < indexLimit then
    return ⟨rows.toNat, columns.toNat, coeffs, h.1, h.2.1, h.2.2⟩
  else
    throw (what ++ " dimension exceeds Eigen::Index")

def readVector (what : String) : Reader VectorXd := do
  let rows ← readU64 what
  let columns ← readU64 what
  reject (columns != 1 || decide (limits.maximumVectorRows < rows))
    (what ++ " is not a bounded column vector")
  let coefficients ← checkedCoefficientCount limits rows columns what
  let coeffs ← readCoefficients limits coefficients what
  if h : coeffs.length < indexLimit then
    return ⟨coeffs, h⟩
  else
    throw (what ++ " dimension exceeds Eigen::Index")

def readBytes (count : UInt64) (what : String) : Reader (List UInt8) := do
  reject (decide (limits.maximumPayloadBytes < count)) (what ++ " exceeds configured byte limit")
  takeBytes count.toNat ("truncated " ++ what)

/-! ## What the methods read -/

@[simp] def u64Format : Format UInt64 := ⟨appendU64, fun _ => 0, fun _ => True⟩

@[simp] def i64Format : Format Int64 := ⟨appendI64, fun _ => 0, fun _ => True⟩

@[simp] def binary64Format : Format Binary64 := ⟨appendBinary64, fun _ => 0, fun _ => True⟩

@[simp] def constFormat (bytes : List UInt8) : Format Unit := ⟨fun _ => bytes, fun _ => 0, fun _ => True⟩

@[simp] def matrixFormat : Format MatrixXd :=
  ⟨appendMatrix, fun M => M.coeffs.length,
    fun M => M.coeffs.length ≤ limits.maximumMatrixCoefficients.toNat⟩

@[simp] def vectorFormat : Format VectorXd :=
  ⟨appendVector, fun v => v.coeffs.length,
    fun v => v.coeffs.length ≤ limits.maximumVectorRows.toNat ∧
      v.coeffs.length ≤ limits.maximumMatrixCoefficients.toNat⟩

variable {L : Nat}

theorem expectBytes_reads (expected : List UInt8) (what : String) :
    Reads L (expectBytes expected what) (fun _ => True) (constFormat expected) := by
  intro s hs u s'
  simp only [expectBytes, Reader.run_bind_eq_ok, run_takeBytes_eq_ok, run_reject_eq_ok,
    bne_eq_false_iff_eq]
  constructor
  · rintro ⟨bytes, s₁, ⟨-, hcons⟩, rfl, rfl⟩
    refine ⟨trivial, trivial, hcons, ?_⟩
    rw [hcons.spent]
    exact hs
  · rintro ⟨-, -, hcons, -⟩
    exact ⟨expected, s', ⟨rfl, hcons⟩, rfl, rfl⟩

variable {what : String} {s s' : Cursor}

theorem run_readU64_eq_ok {v : UInt64} :
    (readU64 what).run s = .ok (v, s') ↔ Consumes s (appendU64 v) 0 s' := by
  simp only [readU64, Reader.run_bind_eq_ok, run_takeBytes_eq_ok, Reader.run_pure_eq_ok]
  constructor
  · rintro ⟨bytes, s₁, ⟨hlen, hcons⟩, rfl, rfl⟩
    rw [appendU64, bigEndian_ofBigEndian hlen]
    exact hcons
  · intro hcons
    exact ⟨bigEndian v, s', ⟨rfl, hcons⟩, (ofBigEndian_bigEndian v).symm, rfl⟩

theorem reads_of_run {α : Type} {r : Reader α} {f : α → List UInt8}
    (h : ∀ s a s', r.run s = .ok (a, s') ↔ Consumes s (f a) 0 s') :
    Reads L r (fun _ => True) ⟨f, fun _ => 0, fun _ => True⟩ := by
  intro s hs a s'
  rw [h s a s']
  constructor
  · intro hcons
    exact ⟨trivial, trivial, hcons, by rw [hcons.spent]; exact hs⟩
  · rintro ⟨-, -, hcons, -⟩
    exact hcons

theorem readU64_reads (what : String) : Reads L (readU64 what) (fun _ => True) u64Format :=
  reads_of_run fun _ _ _ => run_readU64_eq_ok

theorem readI64_reads (what : String) : Reads L (readI64 what) (fun _ => True) i64Format := by
  refine reads_of_run fun s v s' => ?_
  simp only [readI64, Reader.run_bind_eq_ok, run_readU64_eq_ok, Reader.run_pure_eq_ok]
  constructor
  · rintro ⟨bits, s₁, hcons, rfl, rfl⟩
    exact hcons
  · intro hcons
    exact ⟨v.toUInt64, s', hcons, rfl, rfl⟩

theorem readBinary64_reads (what : String) :
    Reads L (readBinary64 what) (fun _ => True) binary64Format := by
  refine reads_of_run fun s v s' => ?_
  simp only [readBinary64, Reader.run_bind_eq_ok, run_readU64_eq_ok, Reader.run_pure_eq_ok]
  constructor
  · rintro ⟨bits, s₁, hcons, rfl, rfl⟩
    exact hcons
  · intro hcons
    exact ⟨v.bits, s', hcons, rfl, rfl⟩

theorem readU8_reads (what : String) :
    Reads L (readU8 what) (fun _ => True) ⟨fun b => [b], fun _ => 0, fun _ => True⟩ := by
  refine reads_of_run fun s b s' => ?_
  simp only [readU8, Reader.run_bind_eq_ok, run_takeBytes_eq_ok, Reader.run_pure_eq_ok]
  constructor
  · rintro ⟨bytes, s₁, ⟨hlen, hcons⟩, rfl, rfl⟩
    obtain ⟨b, rfl⟩ := List.length_eq_one_iff.mp hlen
    exact hcons
  · intro hcons
    exact ⟨[b], s', ⟨rfl, hcons⟩, rfl, rfl⟩

theorem run_checkedCoefficientCount_eq_ok {rows columns : UInt64} {n : Nat} :
    (checkedCoefficientCount limits rows columns what).run s = .ok (n, s') ↔
      (n = rows.toNat * columns.toNat ∧ n ≤ limits.maximumMatrixCoefficients.toNat ∧
        rows.toNat < indexLimit ∧ columns.toNat < indexLimit) ∧ s' = s := by
  simp only [checkedCoefficientCount, Reader.run_bind_eq_ok, run_reject_eq_ok,
    Reader.run_pure_eq_ok, Bool.and_eq_false_iff, Bool.or_eq_false_iff, decide_eq_false_iff_not,
    not_lt, not_le, bne_eq_false_iff_eq]
  constructor
  · rintro ⟨_, _, ⟨-, rfl⟩, _, _, ⟨hmax, rfl⟩, _, _, ⟨⟨hr, hc⟩, rfl⟩, rfl, rfl⟩
    exact ⟨⟨rfl, hmax, hr, hc⟩, rfl⟩
  · rintro ⟨⟨rfl, hmax, hr, hc⟩, rfl⟩
    refine ⟨⟨⟩, s', ⟨?_, rfl⟩, ⟨⟩, s', ⟨hmax, rfl⟩, ⟨⟩, s', ⟨⟨hr, hc⟩, rfl⟩, rfl, rfl⟩
    -- A product within the limit does not overflow.
    have hlt := limits.maximumMatrixCoefficients.toNat_lt
    by_cases hzero : rows = 0
    · exact Or.inl hzero
    · right
      have hpos : 0 < rows.toNat := by
        rw [Nat.pos_iff_ne_zero]
        intro h
        exact hzero (UInt64.toNat_inj.mp h)
      rw [Nat.le_div_iff_mul_le hpos, Nat.mul_comm]
      omega

theorem run_consumeCoefficients_eq_ok {n : Nat} {u : Unit} :
    (consumeCoefficients limits n what).run s = .ok (u, s') ↔
      s.spent + n ≤ limits.budget ∧ s' = { s with spent := s.spent + n } := by
  show (if _ then _ else _) = _ ↔ _
  split
  · rename_i h
    refine iff_of_false (fun h => by cases h) ?_
    rintro ⟨hle, -⟩
    omega
  · rename_i h
    simp only [Except.ok.injEq, Prod.mk.injEq, true_and]
    constructor
    · intro heq
      exact ⟨by omega, heq.symm⟩
    · rintro ⟨-, rfl⟩
      rfl

theorem run_requireCoefficientBytes_eq_ok {n : Nat} {u : Unit} :
    (requireCoefficientBytes n what).run s = .ok (u, s') ↔ n * 8 ≤ s.rest.length ∧ s' = s := by
  show (if _ then _ else _) = _ ↔ _
  split
  · rename_i h
    refine iff_of_false (fun h => by cases h) ?_
    rintro ⟨hle, -⟩
    omega
  · rename_i h
    simp only [Except.ok.injEq, Prod.mk.injEq, true_and]
    constructor
    · intro heq
      exact ⟨by omega, heq.symm⟩
    · rintro ⟨-, rfl⟩
      rfl

theorem run_readCoefficients_eq_ok {n : Nat} {coeffs : List Binary64} :
    (readCoefficients limits n what).run s = .ok (coeffs, s') ↔
      coeffs.length = n ∧ s'.spent ≤ limits.budget ∧
        Consumes s (coeffs.flatMap appendBinary64) n s' := by
  simp only [readCoefficients, Reader.run_bind_eq_ok, run_consumeCoefficients_eq_ok,
    run_requireCoefficientBytes_eq_ok]
  have hmany := readMany_reads (L := limits.budget) (readBinary64_reads what) n
  have hcost : ∀ l : List Binary64, binary64Format.list.cost l = 0 := by
    intro l
    simp [Format.list]
  constructor
  · rintro ⟨_, _, ⟨hle, rfl⟩, _, _, ⟨-, rfl⟩, hread⟩
    obtain ⟨hlen, -, hcons, hspent⟩ := (hmany _ hle coeffs s').mp hread
    refine ⟨hlen, hspent, ⟨hcons.rest, hcons.position, ?_⟩⟩
    rw [hcons.spent, hcost]
    rfl
  · rintro ⟨hlen, hspent, hcons⟩
    have hle : s.spent + n ≤ limits.budget := by
      rw [← hcons.spent]
      exact hspent
    refine ⟨⟨⟩, _, ⟨hle, rfl⟩, ⟨⟩, _, ⟨?_, rfl⟩, ?_⟩
    · show n * 8 ≤ s.rest.length
      rw [hcons.rest]
      simp [hlen]
    · refine (hmany _ hle coeffs s').mpr ⟨hlen, fun _ _ => trivial, ⟨hcons.rest, hcons.position, ?_⟩,
        hspent⟩
      rw [hcost]
      exact hcons.spent

theorem toNat_ofNat_of_lt {n : Nat} (h : n < indexLimit) : (UInt64.ofNat n).toNat = n := by
  rw [UInt64.toNat_ofNat']
  have : n < 2 ^ 63 := h
  omega

theorem readMatrix_reads (what : String) :
    Reads limits.budget (readMatrix limits what) (fun _ => True) (matrixFormat limits) := by
  intro s hs M s'
  simp only [readMatrix, Reader.run_bind_eq_ok, run_readU64_eq_ok,
    run_checkedCoefficientCount_eq_ok, run_readCoefficients_eq_ok, run_dite_eq_ok]
  constructor
  · rintro ⟨rows, s₁, h₁, columns, s₂, h₂, n, s₃, ⟨⟨hn, hmax, -⟩, rfl⟩, coeffs, s₄,
      ⟨hlen, hspent, h₃⟩, ⟨hdims, rfl⟩, rfl⟩
    refine ⟨trivial, ?_, ?_, hspent⟩
    · show coeffs.length ≤ _
      rw [hlen]
      exact hmax
    · show Consumes s (appendU64 (UInt64.ofNat rows.toNat) ++ appendU64 (UInt64.ofNat columns.toNat) ++
        coeffs.flatMap appendBinary64) coeffs.length s'
      rw [UInt64.ofNat_toNat, UInt64.ofNat_toNat, hlen, ← Nat.zero_add n]
      refine consumes_append_iff.mpr ⟨s₃, ?_, h₃⟩
      exact consumes_append_iff_free.mpr ⟨s₁, h₁, h₂⟩
  · rintro ⟨-, hmax, hcons, hspent⟩
    have hcons' : Consumes s (appendMatrix M) (0 + M.coeffs.length) s' := by
      rw [Nat.zero_add]
      exact hcons
    obtain ⟨s₂, h₁₂, h₃⟩ := consumes_append_iff.mp hcons'
    obtain ⟨s₁, h₁, h₂⟩ := consumes_append_iff_free.mp h₁₂
    have hrows := toNat_ofNat_of_lt M.rows_lt
    have hcols := toNat_ofNat_of_lt M.cols_lt
    have hlen := M.length_eq
    refine ⟨_, s₁, h₁, _, s₂, h₂, M.coeffs.length, s₂, ⟨⟨?_, hmax, ?_, ?_⟩, rfl⟩, M.coeffs, s',
      ⟨rfl, hspent, h₃⟩, ⟨⟨?_, ?_, ?_⟩, ?_⟩, rfl⟩
    all_goals simp only [hrows, hcols]
    · exact hlen
    · exact M.rows_lt
    · exact M.cols_lt
    · exact hlen
    · exact M.rows_lt
    · exact M.cols_lt

theorem readVector_reads (what : String) :
    Reads limits.budget (readVector limits what) (fun _ => True) (vectorFormat limits) := by
  intro s hs v s'
  simp only [readVector, Reader.run_bind_eq_ok, run_readU64_eq_ok, run_reject_eq_ok,
    run_checkedCoefficientCount_eq_ok, run_readCoefficients_eq_ok, run_dite_eq_ok,
    Bool.or_eq_false_iff, bne_eq_false_iff_eq, decide_eq_false_iff_not]
  constructor
  · rintro ⟨rows, s₁, h₁, columns, s₂, h₂, _, _, ⟨⟨rfl, hrows⟩, rfl⟩, n, s₃, ⟨⟨hn, hmax, -⟩, rfl⟩,
      coeffs, s₄, ⟨hlen, hspent, h₃⟩, ⟨hdims, rfl⟩, rfl⟩
    have hn' : n = rows.toNat := by
      rw [hn]
      exact Nat.mul_one _
    refine ⟨trivial, ⟨?_, ?_⟩, ?_, hspent⟩
    · show coeffs.length ≤ _
      rw [hlen, hn']
      exact UInt64.le_iff_toNat_le.mp (UInt64.not_lt.mp hrows)
    · show coeffs.length ≤ _
      rw [hlen]
      exact hmax
    · show Consumes s (appendU64 (UInt64.ofNat coeffs.length) ++ appendU64 1 ++
        coeffs.flatMap appendBinary64) coeffs.length s'
      rw [hlen, hn', UInt64.ofNat_toNat, ← Nat.zero_add rows.toNat, ← hn']
      refine consumes_append_iff.mpr ⟨s₃, ?_, h₃⟩
      exact consumes_append_iff_free.mpr ⟨s₁, h₁, h₂⟩
  · rintro ⟨-, ⟨hvec, hmax⟩, hcons, hspent⟩
    have hcons' : Consumes s (appendVector v) (0 + v.coeffs.length) s' := by
      rw [Nat.zero_add]
      exact hcons
    obtain ⟨s₂, h₁₂, h₃⟩ := consumes_append_iff.mp hcons'
    obtain ⟨s₁, h₁, h₂⟩ := consumes_append_iff_free.mp h₁₂
    have hrows : (UInt64.ofNat v.rows).toNat = v.coeffs.length := toNat_ofNat_of_lt v.rows_lt
    refine ⟨_, s₁, h₁, 1, s₂, h₂, ⟨⟩, s₂, ⟨⟨rfl, ?_⟩, rfl⟩, v.coeffs.length, s₂,
      ⟨⟨?_, hmax, ?_, by decide⟩, rfl⟩, v.coeffs, s', ⟨rfl, hspent, h₃⟩, ⟨v.rows_lt, rfl⟩, rfl⟩
    · rw [UInt64.not_lt, UInt64.le_iff_toNat_le, hrows]
      exact hvec
    · rw [hrows]
      exact (Nat.mul_one _).symm
    · rw [hrows]
      exact v.rows_lt

theorem run_readBytes_eq_ok {count : UInt64} {bytes : List UInt8} :
    (readBytes limits count what).run s = .ok (bytes, s') ↔
      count ≤ limits.maximumPayloadBytes ∧ bytes.length = count.toNat ∧ Consumes s bytes 0 s' := by
  simp only [readBytes, Reader.run_bind_eq_ok, run_reject_eq_ok, run_takeBytes_eq_ok,
    decide_eq_false_iff_not, UInt64.not_lt]
  constructor
  · rintro ⟨_, _, ⟨hle, rfl⟩, hlen, hcons⟩
    exact ⟨hle, hlen, hcons⟩
  · rintro ⟨hle, hlen, hcons⟩
    exact ⟨⟨⟩, s, ⟨hle, rfl⟩, hlen, hcons⟩

end Reader

end Bravo.Trace
