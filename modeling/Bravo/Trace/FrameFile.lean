import Bravo.Trace.Canonical

/-! # Framed files

The raw-system, proposal and state files are framed in one way: a magic, and for each frame a
header, the length of its canonical payload and the payload itself. Encoding reports where each
payload lies; decoding recovers it. This module has the encoder and decoder with what differs as
a parameter (`FrameFile`), and proves once that the decoder accepts exactly the encodings within
the limits (`decodeFile_eq_ok_iff`).
-/

namespace Bravo.Trace

open List

structure CP2InvocationTraceIdentity where
  sequenceIndex : UInt64
  pairIndex : UInt64
  invocationId : UInt64
deriving DecidableEq, Repr, Inhabited

structure CP2TracePayloadReference where
  offset : UInt64
  length : UInt64
  sha256 : String
deriving DecidableEq, Repr, Inhabited

structure TraceFrame (γ : Type) where
  content : γ
  payload : CP2TracePayloadReference
deriving DecidableEq, Repr

/-- `CP2EncodedRawSystemFile` and its two siblings. -/
structure EncodedFile where
  bytes : List UInt8
  payloads : List CP2TracePayloadReference
deriving DecidableEq, Repr

/-- What distinguishes one kind of file: its names in messages, its magic, the header of a frame
and the payload codec. -/
structure FrameFile (γ η : Type) where
  name : String
  longName : String
  magic : List UInt8
  header : γ → η
  appendHeader : η → List UInt8
  readHeader : Reader η
  encodePayload : γ → Except String (List UInt8)
  decodePayload : CP2TraceDecodeLimits → η → List UInt8 → Nat → Except String (γ × Nat)
  validate : List γ → Except String Unit

section Codec

variable {γ η : Type} (K : FrameFile γ η) (limits : CP2TraceDecodeLimits)

/-! ## Encoding -/

def payloadReference (offset length : UInt64) (payload : List UInt8) : CP2TracePayloadReference :=
  ⟨offset, length, sha256Hex payload⟩

def encodeFrame (output : List UInt8) (c : γ) :
    Except String (List UInt8 × CP2TracePayloadReference) := do
  let payload ← K.encodePayload c
  let length ← checkedU64 payload.length (K.name ++ " payload length")
  let output := output ++ (K.appendHeader (K.header c) ++ appendU64 length)
  let offset ← checkedU64 output.length (K.name ++ " payload offset")
  if 2 ^ 64 ≤ offset.toNat + length.toNat then
    .error (K.name ++ " payload offset plus length overflows u64")
  else
    return (output ++ payload, payloadReference offset length payload)

def encodeFrames : List UInt8 → List γ →
    Except String (List UInt8 × List CP2TracePayloadReference)
  | output, [] => return (output, [])
  | output, c :: cs => do
    let (output, payload) ← encodeFrame K output c
    let (output, payloads) ← encodeFrames output cs
    return (output, payload :: payloads)

def encodeFile (frames : List γ) : Except String EncodedFile := do
  K.validate frames
  let (bytes, payloads) ← encodeFrames K K.magic frames
  return ⟨bytes, payloads⟩

/-! ## Decoding -/

def readPosition (what : String) : Reader UInt64 := fun s =>
  match checkedU64 s.position what with
  | .ok v => .ok (v, s)
  | .error e => .error e

def nested {α : Type} (decode : Nat → Except String (α × Nat)) : Reader α := fun s =>
  match decode s.spent with
  | .ok (a, spent) => .ok (a, { s with spent := spent })
  | .error e => .error e

def readFrame : Reader (TraceFrame γ) := do
  let header ← K.readHeader
  let length ← readU64 (K.name ++ " frame payload length")
  let offset ← readPosition (K.name ++ " payload offset")
  reject (decide (2 ^ 64 ≤ offset.toNat + length.toNat))
    (K.name ++ " payload offset plus length overflows u64")
  let payload ← readBytes limits length (K.name ++ " frame payload")
  let content ← nested (K.decodePayload limits header payload)
  return ⟨content, payloadReference offset length payload⟩

/-- The loop over the frames, `count` of them read so far. Every frame has a length word, so the
number of bytes bounds the number of iterations. -/
def readFrames : Nat → Nat → Reader (List (TraceFrame γ))
  | 0, _ => fun s => if s.rest.isEmpty then .ok ([], s) else .error "no progress"
  | fuel + 1, count => fun s =>
    if s.rest.isEmpty then .ok ([], s)
    else
      (do reject (decide (limits.maximumFrames.toNat ≤ count))
            (K.longName ++ " frame count exceeds configured limit")
          let frame ← readFrame K limits
          let frames ← readFrames fuel (count + 1)
          return frame :: frames : Reader (List (TraceFrame γ))) s

def decodeFile (file : List UInt8) : Except String (List (TraceFrame γ)) :=
  if limits.maximumFileBytes.toNat < file.length then
    .error (K.longName ++ " file exceeds configured aggregate byte limit")
  else do
    let (frames, _) ← (do
      expectBytes K.magic (K.name ++ " file domain")
      readFrames K limits file.length 0 : Reader (List (TraceFrame γ))).run ⟨file, 0, 0⟩
    K.validate (frames.map (·.content))
    return frames

/-! ## What the payload codec has to satisfy -/

/-- The decoder of a payload accepts exactly the encodings of the contents that fit. -/
structure FrameSpec where
  cost : γ → Nat
  fits : γ → Prop
  header_reads : Reads limits.budget K.readHeader (fun _ => True)
    ⟨K.appendHeader, fun _ => 0, fun _ => True⟩
  decode_iff : ∀ {h : η} {payload : List UInt8} {spent spent' : Nat} {c : γ},
    spent ≤ limits.budget →
    (K.decodePayload limits h payload spent = .ok (c, spent') ↔
      (K.header c = h ∧ K.encodePayload c = .ok payload) ∧
        (fits c ∧ payload.length ≤ limits.maximumPayloadBytes.toNat) ∧
        spent' = spent + cost c ∧ spent' ≤ limits.budget)

/-! ## One frame -/

def frameBytes (c : γ) (payload : List UInt8) : List UInt8 :=
  K.appendHeader (K.header c) ++ appendU64 (UInt64.ofNat payload.length) ++ payload

/-- The reference to a payload in the frame that starts at `position`. -/
def referenceAt (position : Nat) (c : γ) (payload : List UInt8) : CP2TracePayloadReference :=
  payloadReference (UInt64.ofNat (position + (K.appendHeader (K.header c)).length + 8))
    (UInt64.ofNat payload.length) payload

theorem length_frameBytes (c : γ) (payload : List UInt8) :
    (frameBytes K c payload).length =
      (K.appendHeader (K.header c)).length + 8 + payload.length := by
  simp [frameBytes]
  omega

theorem encodeFrame_eq_ok {output output' : List UInt8} {c : γ} {r : CP2TracePayloadReference} :
    encodeFrame K output c = .ok (output', r) ↔
      ∃ payload, K.encodePayload c = .ok payload ∧ output' = output ++ frameBytes K c payload ∧
        output'.length < 2 ^ 64 ∧ r = referenceAt K output.length c payload := by
  unfold encodeFrame
  simp only [bind_eq_ok, checkedU64_eq_ok]
  constructor
  · rintro ⟨payload, hp, length, hlen, offset, hoff, hrun⟩
    split at hrun
    · cases hrun
    · rename_i hlt
      cases hrun
      have hlen' : UInt64.ofNat payload.length = length := by rw [← hlen, UInt64.ofNat_toNat]
      have hsize : offset.toNat = output.length + (K.appendHeader (K.header c)).length + 8 := by
        rw [hoff]
        simp
        omega
      refine ⟨payload, hp, ?_, ?_, ?_⟩
      · rw [frameBytes, hlen', append_assoc]
      · rw [length_append, ← hoff, ← hlen]
        omega
      · rw [referenceAt, hlen', ← hsize, UInt64.ofNat_toNat]
  · rintro ⟨payload, hp, rfl, hlt, rfl⟩
    rw [length_append, length_frameBytes] at hlt
    have hlen : (UInt64.ofNat payload.length).toNat = payload.length := by
      rw [UInt64.toNat_ofNat']
      omega
    have hoff : (UInt64.ofNat (output.length + (K.appendHeader (K.header c)).length + 8)).toNat =
        output.length + (K.appendHeader (K.header c)).length + 8 := by
      rw [UInt64.toNat_ofNat']
      omega
    refine ⟨payload, hp, _, hlen, _, hoff.trans ?_, ?_⟩
    · simp
      omega
    · rw [if_neg (by rw [hoff, hlen]; omega)]
      simp [frameBytes, referenceAt, pure, Except.pure]

variable {s s' : Cursor}

theorem run_readPosition_eq_ok {what : String} {v : UInt64} :
    (readPosition what).run s = .ok (v, s') ↔ v.toNat = s.position ∧ s' = s := by
  rw [show v.toNat = s.position ↔ checkedU64 s.position what = .ok v from checkedU64_eq_ok.symm]
  show (match checkedU64 s.position what with | .ok v => _ | .error e => _) = _ ↔ _
  cases checkedU64 s.position what with
  | ok w => simp [eq_comm]
  | error e => simp

theorem run_nested_eq_ok {α : Type} {decode : Nat → Except String (α × Nat)} {a : α} :
    (nested decode).run s = .ok (a, s') ↔
      ∃ spent, decode s.spent = .ok (a, spent) ∧ s' = { s with spent := spent } := by
  show (match decode s.spent with | .ok (a, spent) => _ | .error e => _) = _ ↔ _
  cases decode s.spent with
  | ok p =>
    obtain ⟨b, spent⟩ := p
    simp only [Except.ok.injEq, Prod.mk.injEq]
    constructor
    · rintro ⟨rfl, rfl⟩
      exact ⟨spent, ⟨rfl, rfl⟩, rfl⟩
    · rintro ⟨_, ⟨rfl, rfl⟩, rfl⟩
      exact ⟨rfl, rfl⟩
  | error e => simp

variable {K limits}

def PayloadWithin (K : FrameFile γ η) (limits : CP2TraceDecodeLimits) (c : γ) : Prop :=
  ∀ payload, K.encodePayload c = .ok payload →
    payload.length ≤ limits.maximumPayloadBytes.toNat

variable (spec : FrameSpec K limits)

theorem run_readFrame_eq_ok {f : TraceFrame γ} (hs : s.spent ≤ limits.budget) :
    (readFrame K limits).run s = .ok (f, s') ↔
      ∃ payload, K.encodePayload f.content = .ok payload ∧
        f.payload = referenceAt K s.position f.content payload ∧
        s'.position < 2 ^ 64 ∧ (spec.fits f.content ∧ PayloadWithin K limits f.content) ∧
        Consumes s (frameBytes K f.content payload) (spec.cost f.content) s' ∧
        s'.spent ≤ limits.budget := by
  simp only [readFrame, Reader.run_bind_eq_ok, run_readU64_eq_ok, run_readPosition_eq_ok,
    run_reject_eq_ok, run_readBytes_eq_ok, run_nested_eq_ok, Reader.run_pure_eq_ok,
    decide_eq_false_iff_not, not_le]
  constructor
  · rintro ⟨h, s₁, hhead, length, s₂, hlength, offset, s₃, ⟨hoff, rfl⟩, _, s₄, ⟨hlt, rfl⟩, payload,
      s₅, ⟨-, hplen, hpay⟩, c, s₆, ⟨spent, hdec, rfl⟩, rfl, rfl⟩
    obtain ⟨-, -, hcons₁, -⟩ := (spec.header_reads s hs h s₁).mp hhead
    have hspent₅ : s₅.spent = s.spent := by
      rw [hpay.spent, hlength.spent, hcons₁.spent]
      rfl
    rw [hspent₅] at hdec
    obtain ⟨⟨rfl, henc⟩, ⟨hfit, hmax⟩, hcost, hle⟩ := (spec.decode_iff hs).mp hdec
    have hlen' : UInt64.ofNat payload.length = length := by rw [hplen, UInt64.ofNat_toNat]
    have hpos₄ : s₄.position = s.position + (K.appendHeader (K.header c)).length + 8 := by
      rw [hlength.position, hcons₁.position]
      rfl
    refine ⟨payload, henc, ?_, ?_, ⟨hfit, ?_⟩, ⟨?_, ?_, hcost⟩, hle⟩
    · show payloadReference offset length payload = _
      rw [referenceAt, hlen', ← hpos₄, ← hoff, UInt64.ofNat_toNat]
    · show s₅.position < 2 ^ 64
      rw [hpay.position, hplen, ← hoff]
      exact hlt
    · intro p hp
      rw [henc] at hp
      cases hp
      exact hmax
    · show s.rest = frameBytes K c payload ++ s₅.rest
      rw [hcons₁.rest, hlength.rest, hpay.rest, frameBytes, hlen']
      simp
    · show s₅.position = s.position + (frameBytes K c payload).length
      rw [hpay.position, hpos₄, length_frameBytes]
      omega
  · rintro ⟨payload, henc, href, hlt, ⟨hfit, hwithin⟩, hcons, hle⟩
    have hmax := hwithin payload henc
    -- Cut the frame into header, length word and payload; the budget is spent at the end.
    have hfree : Consumes s (frameBytes K f.content payload) 0 { s' with spent := s.spent } :=
      ⟨hcons.rest, hcons.position, rfl⟩
    obtain ⟨s₂, h₁₂, h₃⟩ := consumes_append_iff_free.mp hfree
    obtain ⟨s₁, h₁, h₂⟩ := consumes_append_iff_free.mp h₁₂
    have hpos : s₂.position = s.position + (K.appendHeader (K.header f.content)).length + 8 := by
      rw [h₂.position, h₁.position]
      rfl
    have hpos' : s'.position = s₂.position + payload.length := h₃.position
    have hoff : (UInt64.ofNat s₂.position).toNat = s₂.position := by
      rw [UInt64.toNat_ofNat']
      omega
    have hlen : (UInt64.ofNat payload.length).toNat = payload.length := by
      rw [UInt64.toNat_ofNat']
      omega
    have hhead := (spec.header_reads s hs (K.header f.content) s₁).mpr
      ⟨trivial, trivial, h₁, by rw [h₁.spent]; exact hs⟩
    have hdec : K.decodePayload limits (K.header f.content) payload s.spent =
        .ok (f.content, s'.spent) :=
      (spec.decode_iff hs).mpr ⟨⟨rfl, henc⟩, ⟨hfit, hmax⟩, hcons.spent, hle⟩
    refine ⟨_, s₁, hhead, _, s₂, h₂, _, s₂, ⟨hoff, rfl⟩, ⟨⟩, s₂, ⟨?_, rfl⟩, payload,
      { s' with spent := s.spent }, ⟨?_, hlen.symm, h₃⟩, f.content, s', ⟨s'.spent, hdec, rfl⟩, ?_, rfl⟩
    · rw [hoff, hlen]
      omega
    · rw [UInt64.le_iff_toNat_le, hlen]
      exact hmax
    · rw [hpos, ← referenceAt, ← href]

/-! ## All frames -/

variable {cs : List γ}

theorem encodeFrames_cons_eq_ok {output final : List UInt8} {c : γ}
    {r : CP2TracePayloadReference} {rs : List CP2TracePayloadReference} :
    encodeFrames K output (c :: cs) = .ok (final, r :: rs) ↔
      ∃ output', encodeFrame K output c = .ok (output', r) ∧
        encodeFrames K output' cs = .ok (final, rs) := by
  simp only [encodeFrames, bind_eq_ok, Prod.exists]
  constructor
  · rintro ⟨output', r', h₁, final', rs', h₂, h₃⟩
    cases h₃
    exact ⟨output', h₁, h₂⟩
  · rintro ⟨output', h₁, h₂⟩
    exact ⟨output', r, h₁, final, rs, h₂, rfl⟩

theorem length_le_of_encodeFrames :
    ∀ {output final : List UInt8} {rs : List CP2TracePayloadReference},
      encodeFrames K output cs = .ok (final, rs) → output.length + 8 * cs.length ≤ final.length := by
  induction cs with
  | nil =>
    intro output final rs h
    cases h
    simp
  | cons c cs ih =>
    intro output final rs h
    simp only [encodeFrames, bind_eq_ok, Prod.exists] at h
    obtain ⟨output', r, h₁, final', rs', h₂, h₃⟩ := h
    cases h₃
    obtain ⟨payload, -, rfl, -, -⟩ := (encodeFrame_eq_ok K).mp h₁
    have := ih h₂
    rw [length_append, length_frameBytes] at this
    rw [length_cons]
    omega

theorem prefix_of_encodeFrames :
    ∀ {output final : List UInt8} {rs : List CP2TracePayloadReference},
      encodeFrames K output cs = .ok (final, rs) → ∃ rest, final = output ++ rest := by
  induction cs with
  | nil =>
    intro output final rs h
    cases h
    exact ⟨[], by simp⟩
  | cons c cs ih =>
    intro output final rs h
    simp only [encodeFrames, bind_eq_ok, Prod.exists] at h
    obtain ⟨output', r, h₁, final', rs', h₂, h₃⟩ := h
    cases h₃
    obtain ⟨payload, -, rfl, -, -⟩ := (encodeFrame_eq_ok K).mp h₁
    obtain ⟨rest, hrest⟩ := ih h₂
    exact ⟨frameBytes K c payload ++ rest, by rw [hrest, append_assoc]⟩

/-- What the decoder demands of the frames beyond their encoding. -/
def FrameSpec.Fits (c : γ) : Prop :=
  spec.fits c ∧ PayloadWithin K limits c

/-- From the cursor `s`, the bytes ahead are the encoding of the frames `fs`, which fit. -/
structure FramesAhead (spec : FrameSpec K limits) (count : Nat) (s : Cursor)
    (output : List UInt8) (fs : List (TraceFrame γ)) (s' : Cursor) : Prop where
  encoded : encodeFrames K output (fs.map (·.content)) = .ok (output ++ s.rest, fs.map (·.payload))
  fits : ∀ f ∈ fs, spec.Fits f.content
  count_le : count + fs.length ≤ limits.maximumFrames.toNat
  after : s' = ⟨[], s.position + s.rest.length,
    s.spent + (fs.map fun f => spec.cost f.content).sum⟩
  spent_le : s'.spent ≤ limits.budget

variable {fs : List (TraceFrame γ)}

theorem framesAhead_of_rest_nil {count : Nat} {output : List UInt8} (hrest : s.rest = [])
    (hs : s.spent ≤ limits.budget) (hcount : count ≤ limits.maximumFrames.toNat) :
    FramesAhead spec count s output fs s' ↔ fs = [] ∧ s' = s := by
  constructor
  · rintro ⟨henc, -, -, hafter, -⟩
    have hlen := length_le_of_encodeFrames henc
    rw [hrest, append_nil, length_map] at hlen
    have hnil : fs = [] := length_eq_zero_iff.mp (by omega)
    subst hnil
    refine ⟨rfl, ?_⟩
    rw [hafter]
    cases s
    simp_all
  · rintro ⟨rfl, rfl⟩
    refine ⟨?_, by simp, by simpa using hcount, ?_, hs⟩
    · rw [hrest]
      simp [encodeFrames, pure, Except.pure]
    · cases s'
      simp_all

theorem framesAhead_cons_iff {count : Nat}
    {output : List UInt8} {f : TraceFrame γ} (hpos : output.length = s.position) :
    FramesAhead spec count s output (f :: fs) s' ↔
      ∃ payload s₂, K.encodePayload f.content = .ok payload ∧
        f.payload = referenceAt K s.position f.content payload ∧ s₂.position < 2 ^ 64 ∧
        spec.Fits f.content ∧
        Consumes s (frameBytes K f.content payload) (spec.cost f.content) s₂ ∧
        FramesAhead spec (count + 1) s₂ (output ++ frameBytes K f.content payload) fs s' := by
  constructor
  · rintro ⟨henc, hfits, hcount, hafter, hspent⟩
    obtain ⟨output', hframe, hframes⟩ := encodeFrames_cons_eq_ok.mp henc
    obtain ⟨payload, hpayload, rfl, hlt, href⟩ := (encodeFrame_eq_ok K).mp hframe
    obtain ⟨rest, hfinal⟩ := prefix_of_encodeFrames hframes
    have hrest : s.rest = frameBytes K f.content payload ++ rest := by
      rw [append_assoc] at hfinal
      exact append_cancel_left hfinal
    refine ⟨payload, ⟨rest, s.position + (frameBytes K f.content payload).length,
      s.spent + spec.cost f.content⟩, hpayload, ?_, ?_, hfits f mem_cons_self,
      ⟨hrest, rfl, rfl⟩, ?_, ?_, ?_, ?_, hspent⟩
    · rw [← hpos]
      exact href
    · show s.position + _ < _
      rw [← hpos, ← length_append]
      exact hlt
    · rw [← hfinal]
      exact hframes
    · intro g hg
      exact hfits g (mem_cons_of_mem f hg)
    · rw [length_cons] at hcount
      omega
    · rw [hafter, hrest]
      simp [Nat.add_assoc]
  · rintro ⟨payload, s₂, hpayload, href, hlt, hfit, hcons, hahead⟩
    refine ⟨encodeFrames_cons_eq_ok.mpr ⟨_, (encodeFrame_eq_ok K).mpr ⟨payload, hpayload, rfl, ?_, ?_⟩,
      ?_⟩, ?_, ?_, ?_, hahead.spent_le⟩
    · rw [length_append, hpos, ← hcons.position]
      exact hlt
    · rw [hpos]
      exact href
    · rw [hcons.rest, ← append_assoc]
      exact hahead.encoded
    · intro g hg
      rcases mem_cons.mp hg with rfl | hg
      · exact hfit
      · exact hahead.fits g hg
    · have := hahead.count_le
      rw [length_cons]
      omega
    · rw [hahead.after, hcons.spent, hcons.position, hcons.rest]
      simp [Nat.add_assoc]

theorem run_readFrames_eq_ok {fuel : Nat} :
    ∀ (output : List UInt8) {count : Nat} {s s' : Cursor} {fs : List (TraceFrame γ)},
      s.rest.length ≤ fuel → output.length = s.position → s.spent ≤ limits.budget →
      count ≤ limits.maximumFrames.toNat →
      ((readFrames K limits fuel count).run s = .ok (fs, s') ↔
        FramesAhead spec count s output fs s') := by
  induction fuel with
  | zero =>
    intro output count s s' fs hfuel _ hs hcount
    have hrest : s.rest = [] := length_eq_zero_iff.mp (by omega)
    rw [framesAhead_of_rest_nil spec hrest hs hcount]
    show (if s.rest.isEmpty then _ else _) = _ ↔ _
    rw [hrest]
    simp [eq_comm]
  | succ fuel ih =>
    intro output count s s' fs hfuel hpos hs hcount
    by_cases hrest : s.rest = []
    · rw [framesAhead_of_rest_nil spec hrest hs hcount]
      show (if s.rest.isEmpty then _ else _) = _ ↔ _
      rw [hrest]
      simp [eq_comm]
    · have hunfold : (readFrames K limits (fuel + 1) count).run s =
          (do reject (decide (limits.maximumFrames.toNat ≤ count))
                (K.longName ++ " frame count exceeds configured limit")
              let frame ← readFrame K limits
              let frames ← readFrames K limits fuel (count + 1)
              return frame :: frames : Reader (List (TraceFrame γ))).run s := by
        show (if s.rest.isEmpty then _ else _) = _
        rw [if_neg (by simpa using hrest)]
        rfl
      -- A frame takes at least the eight bytes of its length word.
      have hshrinks : ∀ {c : γ} {payload : List UInt8} {cost : Nat} {s₂ : Cursor},
          Consumes s (frameBytes K c payload) cost s₂ → s₂.rest.length ≤ fuel := by
        intro c payload cost s₂ hcons
        rw [hcons.rest, length_append, length_frameBytes] at hfuel
        omega
      rw [hunfold]
      simp only [Reader.run_bind_eq_ok, run_reject_eq_ok, Reader.run_pure_eq_ok,
        decide_eq_false_iff_not, not_le]
      constructor
      · rintro ⟨_, s₁, ⟨hlt, rfl⟩, f, s₂, hframe, fs', s₃, hfs, rfl, rfl⟩
        obtain ⟨payload, hpayload, href, hpos₂, hfit, hcons, hspent⟩ :=
          (run_readFrame_eq_ok spec hs).mp hframe
        refine (framesAhead_cons_iff spec hpos).mpr
          ⟨payload, s₂, hpayload, href, hpos₂, hfit, hcons, ?_⟩
        exact (ih _ (hshrinks hcons) (by rw [length_append, hcons.position, hpos]) hspent
          (by omega)).mp hfs
      · intro hahead
        cases fs with
        | nil =>
          have := hahead.encoded
          simp only [map_nil, encodeFrames, pure, Except.pure, Except.ok.injEq,
            Prod.mk.injEq, and_true] at this
          exact absurd (self_eq_append_right.mp this) hrest
        | cons f fs =>
          have hcount' := hahead.count_le
          rw [length_cons] at hcount'
          obtain ⟨payload, s₂, hpayload, href, hpos₂, hfit, hcons, htail⟩ :=
            (framesAhead_cons_iff spec hpos).mp hahead
          have hspent : s₂.spent ≤ limits.budget := by
            have h₁ := htail.spent_le
            rw [htail.after] at h₁
            exact le_trans (Nat.le_add_right _ _) h₁
          refine ⟨⟨⟩, s, ⟨by omega, rfl⟩, f, s₂, (run_readFrame_eq_ok spec hs).mpr
            ⟨payload, hpayload, href, hpos₂, hfit, hcons, hspent⟩, fs, s', ?_, rfl, rfl⟩
          exact (ih _ (hshrinks hcons) (by rw [length_append, hcons.position, hpos]) hspent
            (by omega)).mpr htail

/-! ## Whole files -/

structure FileFits (spec : FrameSpec K limits) (cs : List γ) (bytes : List UInt8) : Prop where
  file : bytes.length ≤ limits.maximumFileBytes.toNat
  frames : cs.length ≤ limits.maximumFrames.toNat
  fits : ∀ c ∈ cs, spec.Fits c
  coefficients : (cs.map spec.cost).sum ≤ limits.budget

theorem encodeFile_eq_ok {file : EncodedFile} :
    encodeFile K cs = .ok file ↔
      K.validate cs = .ok ⟨⟩ ∧ encodeFrames K K.magic cs = .ok (file.bytes, file.payloads) := by
  simp only [encodeFile, bind_eq_ok, Prod.exists]
  constructor
  · rintro ⟨_, hval, bytes, payloads, hframes, h⟩
    cases h
    exact ⟨hval, hframes⟩
  · rintro ⟨hval, hframes⟩
    exact ⟨⟨⟩, hval, file.bytes, file.payloads, hframes, rfl⟩

/-- **The decoder accepts exactly the encodings within the limits**, and gives back the frames
with the references the encoder reports. -/
theorem decodeFile_eq_ok_iff {bytes : List UInt8} : decodeFile K limits bytes = .ok fs ↔
      encodeFile K (fs.map (·.content)) = .ok ⟨bytes, fs.map (·.payload)⟩ ∧
        FileFits spec (fs.map (·.content)) bytes := by
  unfold decodeFile
  by_cases hfile : limits.maximumFileBytes.toNat < bytes.length
  · rw [if_pos hfile]
    refine iff_of_false (fun h => by cases h) ?_
    rintro ⟨-, hfits⟩
    have := hfits.file
    omega
  rw [if_neg hfile, encodeFile_eq_ok]
  simp only [bind_eq_ok, Prod.exists, Reader.run_bind_eq_ok]
  have hmagic := expectBytes_reads (L := limits.budget) K.magic (K.name ++ " file domain")
  constructor
  · rintro ⟨fs', s', ⟨u, s₁, hexp, hread⟩, _, hval, h⟩
    cases h
    obtain ⟨-, -, hcons, hspent⟩ := (hmagic ⟨bytes, 0, 0⟩ (Nat.zero_le _) u s₁).mp hexp
    have hrest : bytes = K.magic ++ s₁.rest := hcons.rest
    have hahead := (run_readFrames_eq_ok spec K.magic (by rw [hrest]; simp)
      (by rw [hcons.position]; exact (Nat.zero_add _).symm) hspent (Nat.zero_le _)).mp hread
    refine ⟨⟨hval, ?_⟩, by omega, ?_, ?_, ?_⟩
    · rw [hrest]
      exact hahead.encoded
    · have := hahead.count_le
      rw [length_map]
      omega
    · intro c hc
      obtain ⟨f, hf, rfl⟩ := mem_map.mp hc
      exact hahead.fits f hf
    · have hle := hahead.spent_le
      rw [hahead.after, hcons.spent] at hle
      rw [List.map_map]
      simp only [constFormat, Nat.zero_add] at hle
      exact hle
  · rintro ⟨⟨hval, hframes⟩, hfits⟩
    obtain ⟨rest, hrest⟩ := prefix_of_encodeFrames hframes
    have hrest' : bytes = K.magic ++ rest := hrest
    have hcons : Consumes ⟨bytes, 0, 0⟩ K.magic 0 ⟨rest, K.magic.length, 0⟩ :=
      ⟨hrest', (Nat.zero_add _).symm, rfl⟩
    have hahead : FramesAhead spec 0 ⟨rest, K.magic.length, 0⟩ K.magic fs
        ⟨[], K.magic.length + rest.length, 0 + (fs.map fun f => spec.cost f.content).sum⟩ := by
      refine ⟨?_, ?_, ?_, rfl, ?_⟩
      · rw [← hrest']
        exact hframes
      · intro f hf
        exact hfits.fits _ (mem_map_of_mem hf)
      · have := hfits.frames
        rw [length_map] at this
        omega
      · have := hfits.coefficients
        rw [List.map_map] at this
        rw [Nat.zero_add]
        exact this
    refine ⟨fs, _, ⟨⟨⟩, _, (hmagic _ (Nat.zero_le _) _ _).mpr ⟨trivial, trivial, hcons, Nat.zero_le _⟩,
      (run_readFrames_eq_ok spec K.magic ?_ rfl (Nat.zero_le _) (Nat.zero_le _)).mpr hahead⟩, ⟨⟩,
      hval, rfl⟩
    rw [hrest']
    simp

theorem encodeFrames_map {g : γ → γ} (hheader : ∀ c, K.header (g c) = K.header c)
    (hpayload : ∀ c payload, K.encodePayload c = .ok payload → K.encodePayload (g c) = .ok payload) :
    ∀ {cs : List γ} {output final : List UInt8} {rs : List CP2TracePayloadReference},
      encodeFrames K output cs = .ok (final, rs) →
      encodeFrames K output (cs.map g) = .ok (final, rs) := by
  intro cs
  induction cs with
  | nil =>
    intro output final rs h
    exact h
  | cons c cs ih =>
    intro output final rs h
    simp only [encodeFrames, bind_eq_ok, Prod.exists] at h
    obtain ⟨output', r, h₁, final', rs', h₂, h₃⟩ := h
    cases h₃
    obtain ⟨payload, henc, hout, hlt, href⟩ := (encodeFrame_eq_ok K).mp h₁
    refine encodeFrames_cons_eq_ok.mpr ⟨output', (encodeFrame_eq_ok K).mpr
      ⟨payload, hpayload c payload henc, ?_, hlt, ?_⟩, ih h₂⟩
    · rw [hout, frameBytes, frameBytes, hheader]
    · rw [href, referenceAt, referenceAt, hheader]

theorem length_payloads_of_encodeFrames :
    ∀ {output final : List UInt8} {rs : List CP2TracePayloadReference},
      encodeFrames K output cs = .ok (final, rs) → rs.length = cs.length := by
  induction cs with
  | nil =>
    intro output final rs h
    cases h
    rfl
  | cons c cs ih =>
    intro output final rs h
    simp only [encodeFrames, bind_eq_ok, Prod.exists] at h
    obtain ⟨output', r, -, final', rs', h₂, h₃⟩ := h
    cases h₃
    rw [length_cons, length_cons, ih h₂]

def withPayloads (cs : List γ) (payloads : List CP2TracePayloadReference) : List (TraceFrame γ) :=
  (cs.zip payloads).map fun p => ⟨p.1, p.2⟩

theorem decodeFile_encodeFile {file : EncodedFile}
    (henc : encodeFile K cs = .ok file) (hfits : FileFits spec cs file.bytes) :
    ∃ decoded, decodeFile K limits file.bytes = .ok decoded ∧
      decoded.map (·.content) = cs ∧ decoded.map (·.payload) = file.payloads := by
  have hlen : file.payloads.length = cs.length :=
    length_payloads_of_encodeFrames (encodeFile_eq_ok.mp henc).2
  have hcontent : (withPayloads cs file.payloads).map (·.content) = cs := by
    rw [withPayloads, List.map_map]
    exact map_fst_zip (by omega)
  have hpayload : (withPayloads cs file.payloads).map (·.payload) = file.payloads := by
    rw [withPayloads, List.map_map]
    exact map_snd_zip (by omega)
  refine ⟨withPayloads cs file.payloads, ?_, hcontent, hpayload⟩
  rw [decodeFile_eq_ok_iff spec, hcontent, hpayload]
  exact ⟨henc, hfits⟩

theorem length_payload_le_of_encodeFrames :
    ∀ {output final : List UInt8} {rs : List CP2TracePayloadReference},
      encodeFrames K output cs = .ok (final, rs) →
      ∀ c ∈ cs, ∀ payload, K.encodePayload c = .ok payload →
        output.length + payload.length ≤ final.length := by
  induction cs with
  | nil =>
    intro output final rs h c hc
    cases hc
  | cons c cs ih =>
    intro output final rs h c' hc' payload' hpayload'
    simp only [encodeFrames, bind_eq_ok, Prod.exists] at h
    obtain ⟨output', r, h₁, final', rs', h₂, h₃⟩ := h
    cases h₃
    obtain ⟨payload, hpayload, rfl, -, -⟩ := (encodeFrame_eq_ok K).mp h₁
    rcases mem_cons.mp hc' with rfl | hc'
    · rw [hpayload] at hpayload'
      cases hpayload'
      have := length_le_of_encodeFrames h₂
      rw [length_append, length_frameBytes] at this
      omega
    · have := ih h₂ c' hc' payload' hpayload'
      rw [length_append] at this
      omega

theorem payloadWithin_of_encodeFile {file : EncodedFile} (henc : encodeFile K cs = .ok file)
    (hle : file.bytes.length ≤ limits.maximumPayloadBytes.toNat) :
    ∀ c ∈ cs, PayloadWithin K limits c := by
  intro c hc payload hpayload
  have := length_payload_le_of_encodeFrames (encodeFile_eq_ok.mp henc).2 c hc payload hpayload
  omega

end Codec

end Bravo.Trace
