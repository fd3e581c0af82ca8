import Bravo.Basic.Words

/-! # Journal frames

The frame of an event: its length, the format version, the number of sections, and the sections
with their tags and lengths. Parsing a written frame gives its sections back and leaves what
follows it.
-/

namespace Bravo.Journal

open List

inductive CP2TraceJournalDecodeStatus
  | kAccepted
  | kTotalBytesLimit
  | kInvalidHeader
  | kTrailingBytes
  | kTruncatedFrame
  | kArithmeticOverflow
  | kFrameLimit
  | kSectionLimit
  | kSectionBytesLimit
  | kInvalidVersion
  | kInvalidBootstrap
  | kInvalidSectionInventory
  | kInvalidSectionValue
  | kIdentityViolation
  | kCanonicalCodecFailure
  | kAllocationFailure
deriving DecidableEq, Repr

structure CP2TraceJournalDecodeLimits where
  maximumTotalBytes : UInt64 := 2147483648
  maximumFrames : UInt64 := 1000000
  maximumSectionsPerFrame : UInt64 := 1000010
  maximumSectionBytes : UInt64 := 536870912

structure WireSection where
  tag : UInt64
  bytes : List UInt8
deriving DecidableEq

structure WireFrame where
  version : UInt64
  sections : List WireSection
deriving DecidableEq

/-! ## Writing -/

/-- `Encoder::Section` -/
def sectionBytes (s : WireSection) : List UInt8 :=
  bigEndian s.tag ++ bigEndian (UInt64.ofNat s.bytes.length) ++ s.bytes

def bodyBytes (frame : WireFrame) : List UInt8 :=
  bigEndian frame.version ++ bigEndian (UInt64.ofNat frame.sections.length) ++
    frame.sections.flatMap sectionBytes

def wireFrameBytes (frame : WireFrame) : List UInt8 :=
  bigEndian (UInt64.ofNat (bodyBytes frame).length) ++ bodyBytes frame

/-- `append_frame_bytes` on an empty output. The checks of `Encoder::Grow` are monotone in the size,
so the last one, on the whole frame, decides: `std::vector<std::uint8_t>::max_size()`. -/
def appendFrameBytes (frame : WireFrame) : Option (List UInt8) :=
  if 2 ^ 63 ≤ (wireFrameBytes frame).length then none else some (wireFrameBytes frame)

/-! ## Parsing -/

/-- `read_u64` -/
def takeWord (bytes : List UInt8) : Option (UInt64 × List UInt8) :=
  if bytes.length < 8 then none else some (ofBigEndian (bytes.take 8), bytes.drop 8)

section Parse

variable (limits : CP2TraceJournalDecodeLimits)

/-- The loop over the sections of `parse_wire_frame`. -/
def parseSections : Nat → List UInt8 →
    Except CP2TraceJournalDecodeStatus (List WireSection × List UInt8)
  | 0, body => .ok ([], body)
  | n + 1, body =>
    match takeWord body with
    | none => .error .kTruncatedFrame
    | some (tag, body) =>
      match takeWord body with
      | none => .error .kTruncatedFrame
      | some (length, body) =>
        if limits.maximumSectionBytes < length then .error .kSectionBytesLimit
        else if body.length < length.toNat then .error .kTruncatedFrame
        else do
          let (sections, rest) ← parseSections n (body.drop length.toNat)
          return (⟨tag, body.take length.toNat⟩ :: sections, rest)

def parseBody (body : List UInt8) : Except CP2TraceJournalDecodeStatus WireFrame :=
  match takeWord body with
  | none => .error .kTruncatedFrame
  | some (version, body) =>
    match takeWord body with
    | none => .error .kTruncatedFrame
    | some (sectionCount, body) =>
      if limits.maximumSectionsPerFrame < sectionCount then .error .kSectionLimit
      else if body.length / 16 < sectionCount.toNat then .error .kTruncatedFrame
      else do
        let (sections, rest) ← parseSections limits sectionCount.toNat body
        if rest.isEmpty then return ⟨version, sections⟩ else .error .kTrailingBytes

/-- `parse_wire_frame` on the bytes from the position on; gives the bytes after the frame. -/
def parseWireFrame (bytes : List UInt8) :
    Except CP2TraceJournalDecodeStatus (WireFrame × List UInt8) :=
  match takeWord bytes with
  | none => .error (if bytes.isEmpty then .kTruncatedFrame else .kTrailingBytes)
  | some (bodyLength, rest) =>
    if rest.length < bodyLength.toNat then .error .kTruncatedFrame
    else do
      let frame ← parseBody limits (rest.take bodyLength.toNat)
      return (frame, rest.drop bodyLength.toNat)

end Parse

/-! ## Parsing what was written -/

theorem takeWord_append (w : UInt64) (rest : List UInt8) :
    takeWord (bigEndian w ++ rest) = some (w, rest) := by
  have hlen : ¬ (bigEndian w ++ rest).length < 8 := by
    simp [bigEndian]
  rw [takeWord, if_neg hlen, take_left' (show (bigEndian w).length = 8 from rfl),
    drop_left' (show (bigEndian w).length = 8 from rfl), ofBigEndian_bigEndian]

@[simp] theorem length_sectionBytes (s : WireSection) :
    (sectionBytes s).length = 16 + s.bytes.length := by
  simp [sectionBytes, bigEndian]
  omega

theorem length_sections_ge (sections : List WireSection) :
    sections.length * 16 ≤ (sections.flatMap sectionBytes).length := by
  induction sections with
  | nil => simp
  | cons s sections ih =>
    rw [flatMap_cons, length_append, length_cons, length_sectionBytes]
    omega

theorem length_section_le {sections : List WireSection} {s : WireSection} (h : s ∈ sections) :
    s.bytes.length ≤ (sections.flatMap sectionBytes).length := by
  induction sections with
  | nil => cases h
  | cons s' sections ih =>
    rw [flatMap_cons, length_append, length_sectionBytes]
    rcases mem_cons.mp h with rfl | h
    · omega
    · have := ih h
      omega

@[simp] theorem length_bodyBytes (frame : WireFrame) :
    (bodyBytes frame).length = 16 + (frame.sections.flatMap sectionBytes).length := by
  simp [bodyBytes, bigEndian]
  omega

@[simp] theorem length_wireFrameBytes (frame : WireFrame) :
    (wireFrameBytes frame).length = 24 + (frame.sections.flatMap sectionBytes).length := by
  simp [wireFrameBytes, bigEndian]
  omega

structure SectionsWithin (limits : CP2TraceJournalDecodeLimits) (sections : List WireSection) :
    Prop where
  count : sections.length ≤ limits.maximumSectionsPerFrame.toNat
  bytes : ∀ s ∈ sections, s.bytes.length ≤ limits.maximumSectionBytes.toNat

theorem parseSections_flatMap {limits : CP2TraceJournalDecodeLimits} (rest : List UInt8) :
    ∀ {sections : List WireSection},
      (∀ s ∈ sections, s.bytes.length ≤ limits.maximumSectionBytes.toNat) →
      parseSections limits sections.length (sections.flatMap sectionBytes ++ rest) =
        .ok (sections, rest) := by
  intro sections
  induction sections with
  | nil =>
    intro _
    rfl
  | cons s sections ih =>
    intro h
    have hs := h s mem_cons_self
    have hlt := limits.maximumSectionBytes.toNat_lt
    have hlen : (UInt64.ofNat s.bytes.length).toNat = s.bytes.length := by
      rw [UInt64.toNat_ofNat']
      omega
    have hlimit : ¬ limits.maximumSectionBytes < UInt64.ofNat s.bytes.length := by
      rw [UInt64.not_lt, UInt64.le_iff_toNat_le, hlen]
      exact hs
    have hfits : ¬ (s.bytes ++ (sections.flatMap sectionBytes ++ rest)).length <
        (UInt64.ofNat s.bytes.length).toNat := by
      rw [hlen, length_append]
      omega
    have htail := ih fun s' hs' => h s' (mem_cons_of_mem s hs')
    have hassoc : (s :: sections).flatMap sectionBytes ++ rest = bigEndian s.tag ++
        (bigEndian (UInt64.ofNat s.bytes.length) ++
          (s.bytes ++ (sections.flatMap sectionBytes ++ rest))) := by
      simp [sectionBytes]
    rw [hassoc, length_cons, parseSections, takeWord_append]
    simp only [takeWord_append, if_neg hlimit, if_neg hfits]
    rw [hlen, drop_left' rfl, take_left' rfl, htail]
    rfl

/-- **Parsing a written frame** gives its sections and the bytes that follow. -/
theorem parseWireFrame_append {limits : CP2TraceJournalDecodeLimits} {frame : WireFrame}
    (hwithin : SectionsWithin limits frame.sections) (hlt : (bodyBytes frame).length < 2 ^ 64)
    (rest : List UInt8) :
    parseWireFrame limits (wireFrameBytes frame ++ rest) = .ok (frame, rest) := by
  have hbody : (UInt64.ofNat (bodyBytes frame).length).toNat = (bodyBytes frame).length := by
    rw [UInt64.toNat_ofNat']
    omega
  have hmax := limits.maximumSectionsPerFrame.toNat_lt
  have hle := hwithin.count
  have hcount : (UInt64.ofNat frame.sections.length).toNat = frame.sections.length := by
    rw [UInt64.toNat_ofNat']
    omega
  have hlimit : ¬ limits.maximumSectionsPerFrame < UInt64.ofNat frame.sections.length := by
    rw [UInt64.not_lt, UInt64.le_iff_toNat_le, hcount]
    exact hle
  have hsections := parseSections_flatMap [] hwithin.bytes
  rw [append_nil] at hsections
  have hroom : ¬ (frame.sections.flatMap sectionBytes).length / 16 <
      (UInt64.ofNat frame.sections.length).toNat := by
    have := length_sections_ge frame.sections
    rw [hcount]
    omega
  have hparse : parseBody limits (bodyBytes frame) = .ok frame := by
    rw [bodyBytes, append_assoc, parseBody, takeWord_append]
    simp only [takeWord_append, if_neg hlimit, if_neg hroom]
    rw [hcount, hsections]
    rfl
  have hfits : ¬ (bodyBytes frame ++ rest).length < (UInt64.ofNat (bodyBytes frame).length).toNat := by
    rw [hbody, length_append]
    omega
  rw [wireFrameBytes, append_assoc, parseWireFrame, takeWord_append]
  simp only [if_neg hfits]
  rw [hbody, take_left' rfl, drop_left' rfl, hparse]
  rfl

end Bravo.Journal
