import Bravo.Filter.Lifecycle

/-! # One propagation for many readings

`propagate_and_clone` sums the transitions and the noises of the IMU readings, and propagates the
covariance once at the end. This is what one propagation after each reading would do
(`summed_propagation`).
-/

namespace Bravo.Filter

open Bravo.Linear Matrix List Dense

/-! ## The sums -/

section Functions

variable {K : Type} [Field K]

/-- `Phi_summed` and `Qd_summed` after one more `F` and `Qdi`. -/
def sumStep (summed reading : Dense K × Dense K) : Dense K × Dense K :=
  let Qd := (reading.1.mul summed.2).mul reading.1.transpose
  let Qd : Dense K := .ofFn Qd.rows Qd.cols fun i j => Qd.coeff i j + reading.2.coeff i j
  -- The transpose aliases its target, which changes nothing where the sum is symmetric.
  (reading.1.mul summed.1, .ofFn Qd.rows Qd.cols fun i j => 1 / 2 * (Qd.coeff i j + Qd.coeff j i))

/-- The loop over the readings, from the identity and from zero. -/
def summedReadings (n : Nat) (readings : List (Dense K × Dense K)) : Dense K × Dense K :=
  readings.foldl sumStep (scaledIdentity n 1, .zero n n)

/-- One propagation after each reading. -/
def propagateEach [LinearOrder K] (order : List Var) : List (Dense K × Dense K) → State K → Option (State K)
  | [], st => some st
  | reading :: rest, st =>
    (ekfPropagation st order order reading.1 reading.2).bind (propagateEach order rest)

end Functions

/-! ## Propagation as a step -/

section Step

variable {K : Type} [Field K] {st : State K} {order : List Var} {start n N : Nat}

theorem embedding_orthonormal (hfits : start + n ≤ N) :
    (embedding start n N : Matrix _ _ K)ᵀ * (embedding start n N : Matrix _ _ K) = 1 := by
  ext a b
  rw [Matrix.mul_apply, one_apply]
  have hsum := sum_ite_eq_val (show start + a.val < N by omega) (1 : K)
    fun i => if i = start + b.val then (1 : K) else 0
  simp only [one_mul, Nat.add_left_cancel_iff] at hsum
  simp only [transpose_apply, embedding, Fin.ext_iff]
  rw [← hsum]
  exact Finset.sum_congr rfl fun i _ => by simp only [eq_comm]

/-- Consecutive variables make one range. -/
theorem pos_of_consecutive {first : Var} {rest : List Var}
    (hid : ∀ v ∈ first :: rest, st.id v = st.at v) (hconsecutive : st.consecutive (first :: rest) = true) :
    ∀ c < sizeOfVars (first :: rest), st.pos (first :: rest) c = st.at first + c := by
  induction rest generalizing first with
  | nil =>
    intro c hc
    exact pos_cons_lt (by simpa [sizeOfVars] using hc)
  | cons second rest ih =>
    intro c hc
    unfold State.consecutive at hconsecutive
    obtain ⟨hnext, hrest⟩ := Bool.and_eq_true_iff.mp hconsecutive
    have hfollows : st.id first + first.size = st.id second := by simpa using hnext
    rw [hid first mem_cons_self, hid second (by simp)] at hfollows
    by_cases hin : c < first.size
    · exact pos_cons_lt hin
    · have hsplit : c = first.size + (c - first.size) := by omega
      rw [sizeOfVars_cons] at hc
      rw [hsplit, pos_cons_add, ih (fun v hv => hid v (mem_cons_of_mem _ hv)) hrest _ (by omega)]
      omega

theorem transition_eq_stepOf (hpos : ∀ c < n, st.pos order c = start + c) (hsize : sizeOfVars order = n)
    (Phi : Dense K) :
    transition st start n order Phi N = stepOf (embedding start n N) (toMatrix n n Phi) := by
  have hone : (1 : Matrix (Fin n) (Fin n) K) = toMatrix n n (scaledIdentity n 1) := by
    rw [toMatrix_scaledIdentity, one_smul]
  have happly := fun M i k => @congruence_apply K _ N n (embedding start n N)
    (fun i f => embeddingRow start n i f) sum_embedding M i k
  unfold stepOf
  ext i k
  rw [hone, Matrix.mul_sub, Matrix.sub_mul, Matrix.add_apply, Matrix.sub_apply, happly, happly, one_apply]
  unfold transition embeddingRow
  by_cases hi : start ≤ i.val ∧ i.val < start + n
  · have hrow : ∀ c, st.pos order c = k.val → c < n → c = k.val - start := fun c hc hlt => by
      rw [hpos c hlt] at hc
      omega
    by_cases hk : start ≤ k.val ∧ k.val < start + n
    · simp only [if_pos hi, if_pos hk, hsize]
      have hat : k.val - start < n := by omega
      rw [Finset.sum_eq_single (k.val - start) (fun c hc hne => if_neg fun heq =>
        hne (hrow c heq (Finset.mem_range.mp hc))) fun hout => absurd (Finset.mem_range.mpr hat) hout,
        hpos _ hat, if_pos (by omega), scaledIdentity, coeff_ofFn (by omega) hat]
      have hsame : i.val - start = k.val - start ↔ i = k := by
        rw [Fin.ext_iff]
        omega
      simp only [hsame]
      ring
    · have hne : i ≠ k := fun heq => hk (heq ▸ hi)
      simp only [if_pos hi, if_neg hk, if_neg hne, sub_zero, add_zero]
      refine Finset.sum_eq_zero fun c hc => if_neg fun heq => hk ?_
      rw [hsize] at hc
      have hlt := Finset.mem_range.mp hc
      rw [hpos c hlt] at heq
      omega
  · simp [if_neg hi]

end Step

/-! ## Readings -/

section Readings

variable {st : State ℝ} {first : Var} {rest : List Var} {n N : Nat} {summed reading : Dense ℝ × Dense ℝ}

/-- The transition and the noise of a reading. -/
structure Reading (n : Nat) (reading : Dense ℝ × Dense ℝ) : Prop where
  size : reading.1.rows = n ∧ reading.1.cols = n
  noiseRows : reading.2.rows = n
  symmetric : reading.2.Symmetric
  posSemidef : (toMatrix n n reading.2).PosSemidef

theorem Reading.sum (hsummed : Reading n summed) (hreading : Reading n reading) :
    Reading n (sumStep summed reading) ∧
      toMatrix n n (sumStep summed reading).1 = toMatrix n n reading.1 * toMatrix n n summed.1 ∧
      toMatrix n n (sumStep summed reading).2 =
        toMatrix n n reading.1 * toMatrix n n summed.2 * (toMatrix n n reading.1)ᵀ + toMatrix n n reading.2 := by
  obtain ⟨⟨hrows, hcols⟩, hQrows, hQ, hQpsd⟩ := hreading
  obtain ⟨⟨hPhirows, hPhicols⟩, hSrows, hS, hSpsd⟩ := hsummed
  have hScols : summed.2.cols = n := hS.square ▸ hSrows
  set moved := (reading.1.mul summed.2).mul reading.1.transpose with hmoved
  have hsum : toMatrix n n moved =
      toMatrix n n reading.1 * toMatrix n n summed.2 * (toMatrix n n reading.1)ᵀ := by
    rw [hmoved, toMatrix_mul (k := n) (by exact hrows) (by exact hScols) (by exact hrows),
      toMatrix_mul (k := n) hrows hcols hScols, toMatrix_transpose]
  -- The sum is symmetric before it is made so.
  have hsymmetric := symmetric_congruence (toMatrix n n reading.1) (hS.toMatrix_transpose n)
  have hnoise : toMatrix n n (sumStep summed reading).2 = toMatrix n n moved + toMatrix n n reading.2 := by
    rw [← hsum] at hsymmetric
    ext i j
    have hflip : moved.coeff j i = moved.coeff i j := congrFun (congrFun hsymmetric i) j
    have hi : i.val < reading.1.rows := hrows ▸ i.isLt
    have hj : j.val < reading.1.rows := hrows ▸ j.isLt
    change (sumStep summed reading).2.coeff i j = moved.coeff i j + reading.2.coeff i j
    unfold sumStep
    dsimp only
    rw [coeff_ofFn (by exact hi) (by exact hj), coeff_ofFn (by exact hi) (by exact hj),
      coeff_ofFn (by exact hj) (by exact hi), hflip, hQ.coeff_comm' j i]
    ring
  have hpsd := (posSemidef_congruence (toMatrix n n reading.1) hSpsd).add hQpsd
  rw [hsum] at hnoise
  rw [← hnoise] at hpsd
  have hhermitian := hpsd.isHermitian.eq
  rw [conjTranspose_eq_transpose_of_trivial] at hhermitian
  exact ⟨⟨⟨hrows, hPhicols⟩, hrows, symmetric_of_toMatrix hrows hrows hhermitian, hpsd⟩,
    toMatrix_mul hrows hcols hPhicols, hnoise⟩

/-- Consecutive variables of the state, with `n` coordinates. -/
structure Chain (st : State ℝ) (order : List Var) (n : Nat) : Prop where
  held : ∀ v ∈ order, st.Holds v
  consecutive : st.consecutive order = true
  size : sizeOfVars order = n

theorem Chain.congr {order : List Var} (hchain : Chain st order n) (cov : Dense ℝ) :
    Chain { st with cov := cov } order n := by
  refine ⟨hchain.held, ?_, hchain.size⟩
  have hsame : ∀ vs, { st with cov := cov }.consecutive vs = st.consecutive vs := by
    intro vs
    induction vs with
    | nil => rfl
    | cons v rest ih =>
      cases rest with
      | nil => rfl
      | cons w rest => exact congrArg _ ih
  exact (hsame order).trans hchain.consecutive

theorem Chain.range (hchain : Chain st (first :: rest) n) (hl : Laid st) :
    (∀ c < n, st.pos (first :: rest) c = st.at first + c) ∧ st.at first + n ≤ st.cov.rows := by
  have hpos := pos_of_consecutive (fun v hv => (hl.holds_range (hchain.held v hv)).1) hchain.consecutive
  obtain ⟨-, hfits, -⟩ := hl.holds_range (hchain.held first mem_cons_self)
  have hsize := hchain.size
  rw [hsize] at hpos
  refine ⟨hpos, ?_⟩
  by_cases hzero : n = 0
  · omega
  · have hlt := hl.pos_lt hchain.held (c := n - 1) (by omega)
    rw [hpos _ (by omega)] at hlt
    omega

theorem Sound.stepped (hs : Sound st) (hrows : st.cov.rows = N) (hchain : Chain st (first :: rest) n)
    (hreading : Reading n reading) :
    ∃ cov : Dense ℝ, cov.rows = N ∧ cov.cols = N ∧
      Filter.ekfPropagation st (first :: rest) (first :: rest) reading.1 reading.2 =
        some { st with cov := cov } ∧
      toMatrix N N cov = Linear.stepped (embedding (st.at first) n N) (toMatrix n n reading.1)
        (toMatrix n n reading.2) (toMatrix N N st.cov) ∧
      Sound { st with cov := cov } := by
  subst hrows
  have hn := hchain.size.symm
  obtain ⟨⟨hPhirows, hPhicols⟩, hQrows, hQ, hQpsd⟩ := hreading
  obtain ⟨cov, hcovRows, hcovCols, hcov, hresult, -, hkept⟩ := ekfPropagation_congruence hs.laid
    (symmetric_of_posSemidef hs.laid.square hs.posSemidef) hchain.held hchain.consecutive (by simp) hchain.held
    (hPhirows.trans hn) (hPhicols.trans hn) (hQrows.trans hPhirows.symm) hQ
  rw [hPhirows] at hcov hkept
  obtain ⟨hpsd, hneg⟩ := hkept hs.posSemidef hQpsd
  rw [transition_eq_stepOf (hchain.range hs.laid).1 hchain.size] at hcov
  exact ⟨cov, hcovRows, hcovCols, by rw [hresult, hneg]; rfl, hcov,
    hs.congr (fun _ _ => rfl) (le_refl _) hcovRows hcovCols hpsd hs.cameras⟩

/-- The propagation with the sums so far, and then with the rest one by one. -/
theorem propagateEach_of_sums (hs : Sound st) (hchain : Chain st (first :: rest) n)
    {readings : List (Dense ℝ × Dense ℝ)} (hreadings : ∀ reading ∈ readings, Reading n reading) :
    ∀ {summed}, Reading n summed → Reading n (readings.foldl sumStep summed) ∧
      (ekfPropagation st (first :: rest) (first :: rest) summed.1 summed.2).bind
          (propagateEach (first :: rest) readings) =
        ekfPropagation st (first :: rest) (first :: rest) (readings.foldl sumStep summed).1
          (readings.foldl sumStep summed).2 := by
  induction readings with
  | nil => exact fun hsummed => ⟨hsummed, Option.bind_fun_some _⟩
  | cons reading readings ih =>
    intro summed hsummed
    have hreading := hreadings reading mem_cons_self
    obtain ⟨hsum, hPhi, hnoise⟩ := hsummed.sum hreading
    obtain ⟨hlast, hrest⟩ := ih (fun other h => hreadings other (mem_cons_of_mem _ h)) hsum
    refine ⟨hlast, ?_⟩
    rw [foldl_cons, ← hrest]
    obtain ⟨cov, hrows, -, hresult, hcov, hsound⟩ := hs.stepped rfl hchain hsummed
    obtain ⟨cov', hrows', hcols', hresult', hcov', -⟩ := hsound.stepped hrows (hchain.congr cov) hreading
    obtain ⟨total, hrowsTotal, hcolsTotal, hresultTotal, htotal, -⟩ := hs.stepped rfl hchain hsum
    -- Both ways give one covariance.
    have hsame : cov' = total := by
      refine eq_of_toMatrix ⟨hrows', hcols'⟩ ⟨hrowsTotal, hcolsTotal⟩ ?_
      have hfits := (hchain.range hs.laid).2
      rw [hcov', htotal, hPhi, hnoise, ← stepped_stepped (embedding_orthonormal hfits), ← hcov]
      rfl
    rw [hresult, hresultTotal, Option.bind_some, propagateEach, hresult', hsame]

/-- Propagating after each reading, and once with the sums. -/
theorem summed_propagation (hs : Sound st) (hchain : Chain st (first :: rest) n)
    {readings : List (Dense ℝ × Dense ℝ)} (hreadings : ∀ reading ∈ readings, Reading n reading) :
    ∃ st', propagateEach (first :: rest) readings st = some st' ∧ Sound st' ∧
      ekfPropagation st (first :: rest) (first :: rest) (summedReadings n readings).1
        (summedReadings n readings).2 = some st' := by
  have hzero : toMatrix n n (.zero n n : Dense ℝ) = 0 := by
    ext i j
    exact coeff_zero _ _ _ _
  have hstart : Reading n (scaledIdentity n 1, (.zero n n : Dense ℝ)) :=
    ⟨⟨rfl, rfl⟩, rfl, ⟨rfl, fun i j _ _ => by simp⟩, hzero ▸ PosSemidef.zero⟩
  -- No reading leaves the state as it is.
  obtain ⟨cov, hrows, hcols, hresult, hcov, -⟩ := hs.stepped rfl hchain hstart
  rw [toMatrix_scaledIdentity, one_smul, hzero, stepped_one_zero] at hcov
  obtain rfl := eq_of_toMatrix ⟨hrows, hcols⟩ ⟨rfl, hs.laid.square.symm⟩ hcov
  obtain ⟨hsums, hall⟩ := propagateEach_of_sums hs hchain hreadings hstart
  obtain ⟨total, -, -, htotal, -, hsound⟩ := hs.stepped rfl hchain hsums
  rw [hresult, Option.bind_some, htotal] at hall
  exact ⟨_, hall, hsound, htotal⟩

/-- Two readings of an IMU that stands still. -/
theorem summed_propagation_still :
    ∃ st', propagateEach [.imu constructedImu] [(scaledIdentity 15 1, scaledIdentity 15 1),
      (scaledIdentity 15 1, scaledIdentity 15 1)] (State.construct (K := ℝ) plainOptions) = some st' := by
  have hreading : Reading 15 (scaledIdentity 15 1, scaledIdentity 15 1) :=
    ⟨⟨rfl, rfl⟩, rfl, symmetric_scaledIdentity 15 1, by
      rw [toMatrix_scaledIdentity, one_smul]
      exact PosSemidef.one⟩
  have hchain : Chain (State.construct (K := ℝ) plainOptions) [.imu constructedImu] 15 :=
    ⟨fun v hv => by
      rw [mem_singleton.mp hv]
      exact holds_of_mem (imu_mem_construct plainOptions), rfl, rfl⟩
  obtain ⟨st', hresult, -⟩ := summed_propagation (sound_construct plainOptions rfl) hchain
    fun reading hin => by
      rcases mem_pair.mp hin with rfl | rfl
      · exact hreading
      · exact hreading
  exact ⟨st', hresult⟩

end Readings

end Bravo.Filter
